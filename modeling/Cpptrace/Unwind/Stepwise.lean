import Cpptrace.Unwind.Arrays
import Mathlib.Data.List.TakeWhile

/-! The back ends that walk the stack one frame at a time.

`_Unwind_Backtrace` hands each frame to a callback until one does not answer
`_URC_NO_REASON`; libunwind is driven through a cursor. Both start at
`capture_frames`' own frame. `ASSERT` is active, as in a build without `NDEBUG`.
-/

set_option autoImplicit false

namespace Cpptrace.Unwind

/-- What `_Unwind_GetIPInfo` reports of one frame. -/
structure ContextFrame where
  ip : FramePtr
  isBeforeInstruction : Bool
  deriving DecidableEq, Repr

inductive ReasonCode where
  | noReason
  | endOfStack
  deriving DecidableEq, Repr

structure UnwindState where
  skip : Nat
  maxDepth : Nat
  vec : List FramePtr
  deriving DecidableEq, Repr

namespace UnwindBacktrace

def beyondMaxDepth : Exception :=
  .internalError .assert "state.vec.size() < state.max_depth"
    (some "Somehow cpptrace::detail::unwind_callback is being called beyond the max_depth")

def unwindCallback (context : ContextFrame) (state : UnwindState) :
    Except Exception (ReasonCode × UnwindState) := do
  if state.skip ≠ 0 then
    let state := { state with skip := state.skip - 1 }
    -- a skipped frame may end the stack too
    if context.ip = 0 then
      return (.endOfStack, state)
    else
      return (.noReason, state)
  assertImpl (state.vec.length < state.maxDepth) .assert "state.vec.size() < state.max_depth"
    (some "Somehow cpptrace::detail::unwind_callback is being called beyond the max_depth")
  let ip := if !context.isBeforeInstruction && context.ip ≠ 0 then context.ip - 1 else context.ip
  if ip = 0 then
    return (.endOfStack, state)
  else
    let state := { state with vec := state.vec ++ [ip] }
    if state.vec.length ≥ state.maxDepth then
      return (.endOfStack, state)
    else
      return (.noReason, state)

/-- `_Unwind_Backtrace` over the remaining frames, innermost first. -/
def unwindBacktrace : List ContextFrame → UnwindState → Except Exception UnwindState
  | [], state => pure state
  | context :: rest, state => do
      let (code, state) ← unwindCallback context state
      match code with
      | .noReason => unwindBacktrace rest state
      | .endOfStack => pure state

def captureFrames (stack : List ContextFrame) (skip maxDepth : Nat) :
    Except Exception (List FramePtr) := do
  let state ← unwindBacktrace stack ⟨(skip + 1) % sizeModulus, maxDepth, []⟩
  return state.vec

end UnwindBacktrace

/-- The address recorded for a frame: the pc is moved back into the call, unless
the frame was interrupted before its instruction ran. -/
def ContextFrame.adjusted (context : ContextFrame) : FramePtr :=
  if context.isBeforeInstruction then context.ip else context.ip - 1

structure CursorFrame where
  pc : FramePtr
  isSignalFrame : Bool
  deriving DecidableEq, Repr

/-- The frames a cursor passes. `unw_init_local` leaves it on the first, so there is one. -/
structure CallStack where
  innermost : CursorFrame
  callers : List CursorFrame
  deriving DecidableEq, Repr

def CallStack.frames (stack : CallStack) : List CursorFrame :=
  stack.innermost :: stack.callers

namespace Libunwind

/-- The loop body: a frame is skipped, or its return address is moved back into the call. -/
def captureStep (skip : Nat) (frames : List FramePtr) (cursor : CursorFrame) : Nat × List FramePtr :=
  if skip ≠ 0 then (skip - 1, frames) else (skip, frames ++ [cursor.pc - 1])

/-- The `do`-`while` loop: the last argument is what `unw_step` has still to reach. -/
def captureLoop (maxDepth : Nat) :
    Nat → List FramePtr → CursorFrame → List CursorFrame → List FramePtr
  | skip, frames, cursor, [] => (captureStep skip frames cursor).2
  | skip, frames, cursor, next :: rest =>
      let (skip, frames) := captureStep skip frames cursor
      if frames.length < maxDepth then captureLoop maxDepth skip frames next rest else frames

def captureFrames (stack : CallStack) (skip maxDepth : Nat) : List FramePtr :=
  captureLoop maxDepth ((skip + 1) % sizeModulus) [] stack.innermost stack.callers

def safeAddress (cursor : CursorFrame) : FramePtr :=
  if cursor.isSignalFrame then cursor.pc else cursor.pc - 1

def safeCaptureStep (skip i : Nat) (buffer : List FramePtr) (cursor : CursorFrame) :
    Nat × Nat × List FramePtr :=
  if skip ≠ 0 then (skip - 1, i, buffer) else (skip, i + 1, buffer.set i (safeAddress cursor))

/-- The `while` loop: it tests its bounds before the frame under the cursor is read. -/
def safeCaptureLoop (size maxDepth : Nat) :
    Nat → Nat → List FramePtr → CursorFrame → List CursorFrame → List FramePtr × Nat
  | skip, i, buffer, cursor, [] =>
      if i < size ∧ i < maxDepth then
        let (_, i, buffer) := safeCaptureStep skip i buffer cursor
        (buffer, i)
      else (buffer, i)
  | skip, i, buffer, cursor, next :: rest =>
      if i < size ∧ i < maxDepth then
        let (skip, i, buffer) := safeCaptureStep skip i buffer cursor
        safeCaptureLoop size maxDepth skip i buffer next rest
      else (buffer, i)

/-- The buffer after the call and the count it returns. -/
def safeCaptureFrames (stack : CallStack) (buffer : List FramePtr) (size skip maxDepth : Nat) :
    List FramePtr × Nat :=
  safeCaptureLoop size maxDepth ((skip + 1) % sizeModulus) 0 buffer stack.innermost stack.callers

end Libunwind

variable {skip maxDepth size : Nat}

namespace UnwindBacktrace

theorem unwindCallback_skip {context : ContextFrame} (nonzero : context.ip ≠ 0)
    (vec : List FramePtr) :
    unwindCallback context ⟨skip + 1, maxDepth, vec⟩ = .ok (.noReason, ⟨skip, maxDepth, vec⟩) := by
  simp [unwindCallback, nonzero, pure, Except.pure]

theorem unwindCallback_past_depth (context : ContextFrame) {vec : List FramePtr}
    (full : maxDepth ≤ vec.length) :
    unwindCallback context ⟨0, maxDepth, vec⟩ = .error beyondMaxDepth := by
  have beyond : decide (vec.length < maxDepth) = false := by simpa using full
  simp only [unwindCallback, assertImpl, beyond]
  rfl

/-- One recorded frame: the walk goes on while the address is not zero and there is room. -/
theorem unwindCallback_record {context : ContextFrame} (nonzero : context.ip ≠ 0)
    {vec : List FramePtr} (room : vec.length < maxDepth) :
    unwindCallback context ⟨0, maxDepth, vec⟩ =
      if context.adjusted = 0 then .ok (.endOfStack, ⟨0, maxDepth, vec⟩)
      else if maxDepth ≤ vec.length + 1 then
        .ok (.endOfStack, ⟨0, maxDepth, vec ++ [context.adjusted]⟩)
      else .ok (.noReason, ⟨0, maxDepth, vec ++ [context.adjusted]⟩) := by
  cases before : context.isBeforeInstruction <;>
    simp only [unwindCallback, assertImpl, room, before, nonzero, ContextFrame.adjusted] <;>
    (split <;> simp_all [bind, Except.bind, pure, Except.pure])

/-- The walk drops the skipped frames, whether or not the stack has that many. -/
theorem unwindBacktrace_skip {stack : List ContextFrame} (nonzero : ∀ context ∈ stack, context.ip ≠ 0) :
    unwindBacktrace stack ⟨skip, maxDepth, []⟩ =
      if stack.length ≤ skip then .ok ⟨skip - stack.length, maxDepth, []⟩
      else unwindBacktrace (stack.drop skip) ⟨0, maxDepth, []⟩ := by
  induction stack generalizing skip with
  | nil => simp [unwindBacktrace, pure, Except.pure]
  | cons context rest ih =>
    cases skip with
    | zero => simp
    | succ skip =>
      have head : context.ip ≠ 0 := nonzero context (by simp)
      have tail : ∀ other ∈ rest, other.ip ≠ 0 := fun other member => nonzero other (by simp [member])
      rw [unwindBacktrace, unwindCallback_skip head]
      simpa [bind, Except.bind, Nat.succ_le_succ_iff] using ih tail

/-- The recording walk keeps the adjusted addresses up to the bound, and stops at a zero. -/
theorem unwindBacktrace_record {stack : List ContextFrame}
    (nonzero : ∀ context ∈ stack, context.ip ≠ 0) {vec : List FramePtr} (room : vec.length < maxDepth) :
    unwindBacktrace stack ⟨0, maxDepth, vec⟩ =
      .ok ⟨0, maxDepth, vec ++
        ((stack.take (maxDepth - vec.length)).map (·.adjusted)).takeWhile (· ≠ 0)⟩ := by
  induction stack generalizing vec with
  | nil => simp [unwindBacktrace, pure, Except.pure]
  | cons context rest ih =>
    have head : context.ip ≠ 0 := nonzero context (by simp)
    have tail : ∀ other ∈ rest, other.ip ≠ 0 := fun other member => nonzero other (by simp [member])
    obtain ⟨left, depth⟩ : ∃ left, maxDepth - vec.length = left + 1 :=
      ⟨maxDepth - vec.length - 1, by omega⟩
    rw [unwindBacktrace, unwindCallback_record head room, depth, List.take_succ_cons, List.map_cons]
    -- the callback stops at an address that the adjustment made zero, or when there is no more room
    by_cases zero : context.adjusted = 0
    · simp [zero, bind, Except.bind, pure, Except.pure]
    · by_cases last : maxDepth ≤ vec.length + 1
      · have none_left : left = 0 := by omega
        simp [zero, last, none_left, bind, Except.bind, pure, Except.pure]
      · have more : maxDepth - (vec.length + 1) = left := by omega
        have grown : (vec ++ [context.adjusted]).length < maxDepth := by
          simp only [List.length_append, List.length_singleton]
          omega
        simp [zero, last, bind, Except.bind, ih tail grown, more]

theorem captureFrames_eq (maxDepth : Nat) {stack : List ContextFrame}
    (nonzero : ∀ context ∈ stack, context.ip ≠ 0) (fits : skip + 1 < sizeModulus) :
    (maxDepth = 0 ∧ skip + 1 < stack.length ∧
      captureFrames stack skip maxDepth = .error beyondMaxDepth) ∨
    ((maxDepth = 0 → stack.length ≤ skip + 1) ∧ captureFrames stack skip maxDepth =
      .ok (((requested stack skip maxDepth).map (·.adjusted)).takeWhile (· ≠ 0))) := by
  rw [captureFrames, Nat.mod_eq_of_lt fits, unwindBacktrace_skip nonzero]
  by_cases short : stack.length ≤ skip + 1
  · right
    simp [short, requested_eq_nil_of_short short, bind, Except.bind, pure, Except.pure]
  · cases maxDepth with
    | zero =>
      left
      refine ⟨rfl, by omega, ?_⟩
      obtain ⟨context, rest, split⟩ : ∃ context rest, stack.drop (skip + 1) = context :: rest :=
        List.exists_cons_of_length_pos (by rw [List.length_drop]; omega)
      rw [if_neg short, split, unwindBacktrace, unwindCallback_past_depth context (Nat.zero_le _)]
      rfl
    | succ maxDepth =>
      right
      refine ⟨by simp, ?_⟩
      have tail : ∀ context ∈ stack.drop (skip + 1), context.ip ≠ 0 :=
        fun context member => nonzero context (List.mem_of_mem_drop member)
      rw [if_neg short, unwindBacktrace_record tail (by simp)]
      rfl

end UnwindBacktrace

namespace Libunwind

/-- With room left the loop body runs at least once and keeps what is asked for. -/
theorem captureLoop_eq (cursor : CursorFrame) (rest : List CursorFrame) {frames : List FramePtr}
    (room : frames.length < maxDepth) :
    captureLoop maxDepth skip frames cursor rest =
      frames ++ (((cursor :: rest).drop skip).take (maxDepth - frames.length)).map (·.pc - 1) := by
  induction rest generalizing skip frames cursor with
  | nil =>
    cases skip with
    | zero =>
      obtain ⟨left, depth⟩ : ∃ left, maxDepth - frames.length = left + 1 :=
        ⟨maxDepth - frames.length - 1, by omega⟩
      simp [captureLoop, captureStep, depth]
    | succ skip => simp [captureLoop, captureStep]
  | cons next rest ih =>
    cases skip with
    | zero =>
      obtain ⟨left, depth⟩ : ∃ left, maxDepth - frames.length = left + 1 :=
        ⟨maxDepth - frames.length - 1, by omega⟩
      -- the bound is tested after the frame is pushed
      by_cases last : frames.length + 1 < maxDepth
      · have grown : (frames ++ [cursor.pc - 1]).length < maxDepth := by simpa using last
        have more : maxDepth - (frames ++ [cursor.pc - 1]).length = left := by
          simp only [List.length_append, List.length_singleton]
          omega
        have next_frames : captureLoop maxDepth 0 (frames ++ [cursor.pc - 1]) next rest = _ := ih next grown
        rw [more] at next_frames
        simp [captureLoop, captureStep, last, depth, next_frames]
      · have none_left : left = 0 := by omega
        simp [captureLoop, captureStep, last, depth, none_left]
    | succ skip => simpa [captureLoop, captureStep, room] using ih next room

theorem captureFrames_eq (stack : CallStack) (fits : skip + 1 < sizeModulus) :
    captureFrames stack skip maxDepth = (requested stack.frames skip maxDepth).map (·.pc - 1) := by
  rw [captureFrames, Nat.mod_eq_of_lt fits]
  cases maxDepth with
  | zero =>
    -- the first frame is always skipped, so the loop leaves before it records one
    cases stack.callers <;> rfl
  | succ maxDepth => exact captureLoop_eq stack.innermost stack.callers (by simp)

theorem take_set_succ {buffer : List FramePtr} {i : Nat} (inside : i < buffer.length)
    (address : FramePtr) : (buffer.set i address).take (i + 1) = buffer.take i ++ [address] := by
  rw [List.set_eq_take_append_cons_drop, if_pos inside]
  have prefixLength : (buffer.take i).length = i := by
    rw [List.length_take]
    omega
  simp [List.take_append, prefixLength, List.take_of_length_le]

/-- The signal-safe walk writes its window at `i` and leaves the rest of the buffer alone. -/
theorem safeCaptureLoop_eq (cursor : CursorFrame) (rest : List CursorFrame) {buffer : List FramePtr}
    {i : Nat} (sized : buffer.length = size) (written : i ≤ size) {window : List FramePtr}
    (asked : window =
      (((cursor :: rest).drop skip).take (min size maxDepth - i)).map safeAddress) :
    safeCaptureLoop size maxDepth skip i buffer cursor rest =
      (buffer.take i ++ window ++ buffer.drop (i + window.length), i + window.length) := by
  induction rest generalizing skip i buffer cursor window with
  | nil =>
    by_cases room : i < size ∧ i < maxDepth
    · obtain ⟨left, depth⟩ : ∃ left, min size maxDepth - i = left + 1 :=
        ⟨min size maxDepth - i - 1, by omega⟩
      cases skip with
      | zero =>
        have one : window = [safeAddress cursor] := by simp [asked, depth]
        have inside : i < buffer.length := by omega
        simp [safeCaptureLoop, safeCaptureStep, room, one, List.set_eq_take_append_cons_drop, inside]
      | succ skip =>
        have none_asked : window = [] := by simp [asked]
        simp [safeCaptureLoop, safeCaptureStep, room, none_asked]
    · have none_asked : window = [] := by
        rw [asked, show min size maxDepth - i = 0 by omega]
        rfl
      simp [safeCaptureLoop, room, none_asked]
  | cons next rest ih =>
    by_cases room : i < size ∧ i < maxDepth
    · cases skip with
      | zero =>
        obtain ⟨left, depth⟩ : ∃ left, min size maxDepth - i = left + 1 :=
          ⟨min size maxDepth - i - 1, by omega⟩
        have inside : i < buffer.length := by omega
        have more : min size maxDepth - (i + 1) = left := by omega
        have tail : safeCaptureLoop size maxDepth 0 (i + 1) (buffer.set i (safeAddress cursor)) next rest = _ :=
          ih next (by simpa using sized) room.1 rfl
        -- what is written at `i` lies before the part of the buffer that is left alone
        have dropped : ∀ count, (buffer.set i (safeAddress cursor)).drop (i + 1 + count) =
            buffer.drop (i + 1 + count) := fun count => List.drop_set_of_lt (by omega)
        have step : window = safeAddress cursor ::
            (((next :: rest).drop 0).take (min size maxDepth - (i + 1))).map safeAddress := by
          rw [asked, depth, more]
          simp
        rw [safeCaptureLoop, if_pos room]
        simp only [safeCaptureStep, ne_eq, not_true_eq_false, if_false, tail]
        rw [step, take_set_succ inside, dropped, List.length_cons]
        simp [Nat.add_assoc, Nat.add_comm]
      | succ skip =>
        simpa [safeCaptureLoop, safeCaptureStep, room] using
          ih next sized written (by simpa using asked)
    · have none_asked : window = [] := by
        rw [asked, show min size maxDepth - i = 0 by omega]
        rfl
      simp [safeCaptureLoop, room, none_asked]

theorem safeCaptureFrames_eq (stack : CallStack) {buffer : List FramePtr}
    (sized : buffer.length = size) (fits : skip + 1 < sizeModulus) {window : List FramePtr}
    (asked : window = (requested stack.frames skip (min size maxDepth)).map safeAddress) :
    safeCaptureFrames stack buffer size skip maxDepth =
      (window ++ buffer.drop window.length, window.length) := by
  rw [safeCaptureFrames, Nat.mod_eq_of_lt fits,
    safeCaptureLoop_eq stack.innermost stack.callers sized (Nat.zero_le _) asked]
  simp

theorem safeAddress_eq_iff (cursor : CursorFrame) :
    safeAddress cursor = cursor.pc - 1 ↔ cursor.isSignalFrame = false := by
  cases signal : cursor.isSignalFrame with
  | false => simp [safeAddress, signal]
  | true =>
    simp only [safeAddress, signal, if_true, Bool.true_eq_false, iff_false]
    intro same
    grind

end Libunwind

/-- Both stepwise back ends return the requested frames: libunwind on every stack,
`_Unwind_Backtrace` exactly when no frame is left to record at depth zero and no
recorded address is zero once it is adjusted. -/
theorem captureFrames_stepwise_iff (stack : List ContextFrame) (cursors : CallStack)
    (skip maxDepth : Nat) (nonzero : ∀ context ∈ stack, context.ip ≠ 0)
    (fits : skip + 1 < sizeModulus) :
    (UnwindBacktrace.captureFrames stack skip maxDepth =
        .ok ((requested stack skip maxDepth).map (·.adjusted)) ↔
      (maxDepth = 0 → stack.length ≤ skip + 1) ∧
        ∀ context ∈ requested stack skip maxDepth, context.adjusted ≠ 0) ∧
    Libunwind.captureFrames cursors skip maxDepth =
      (requested cursors.frames skip maxDepth).map (·.pc - 1) := by
  refine ⟨?_, Libunwind.captureFrames_eq cursors fits⟩
  rcases UnwindBacktrace.captureFrames_eq maxDepth nonzero fits with
    ⟨rfl, long, failed⟩ | ⟨room, returned⟩
  · simp only [failed, reduceCtorEq, forall_const, false_iff, not_and]
    omega
  · rw [returned, Except.ok.injEq, List.takeWhile_eq_self_iff]
    simpa using fun _ => room

theorem captureFrames_stepwise_iff_at_one :
    (UnwindBacktrace.captureFrames [⟨9, false⟩, ⟨8, false⟩] 0 1 =
        .ok ((requested [(⟨9, false⟩ : ContextFrame), ⟨8, false⟩] 0 1).map (·.adjusted)) ↔
      (1 = 0 → [(⟨9, false⟩ : ContextFrame), ⟨8, false⟩].length ≤ 0 + 1) ∧
        ∀ context ∈ requested [(⟨9, false⟩ : ContextFrame), ⟨8, false⟩] 0 1, context.adjusted ≠ 0) ∧
    Libunwind.captureFrames ⟨⟨9, false⟩, [⟨8, false⟩]⟩ 0 1 =
      (requested (CallStack.frames ⟨⟨9, false⟩, [⟨8, false⟩]⟩) 0 1).map (·.pc - 1) :=
  captureFrames_stepwise_iff [⟨9, false⟩, ⟨8, false⟩] ⟨⟨9, false⟩, [⟨8, false⟩]⟩ 0 1 (by decide) (by decide)

/-- At depth zero the callback is still called on the first frame past the skipped ones. -/
theorem captureFrames_stepwise_fails :
    UnwindBacktrace.captureFrames [⟨9, false⟩, ⟨8, false⟩] 0 0 =
        .error UnwindBacktrace.beyondMaxDepth ∧
      requested [(⟨9, false⟩ : ContextFrame), ⟨8, false⟩] 0 0 = [] := by
  decide

/-- The signal-safe walk returns the right count for every stack, and the addresses
of the ordinary walk exactly when it records no signal frame. -/
theorem safeCaptureFrames_agrees_iff (stack : CallStack) (buffer : List FramePtr)
    (size skip maxDepth : Nat) (sized : buffer.length = size) (fits : skip + 1 < sizeModulus) :
    (Libunwind.safeCaptureFrames stack buffer size skip maxDepth).2 =
        min size (Libunwind.captureFrames stack skip maxDepth).length ∧
    ((Libunwind.safeCaptureFrames stack buffer size skip maxDepth).1.take
          (Libunwind.safeCaptureFrames stack buffer size skip maxDepth).2 =
        (Libunwind.captureFrames stack skip maxDepth).take
          (Libunwind.safeCaptureFrames stack buffer size skip maxDepth).2 ↔
      ∀ cursor ∈ requested stack.frames skip (min size maxDepth), cursor.isSignalFrame = false) := by
  have narrowed := take_requested stack.frames skip maxDepth size
  rw [Libunwind.safeCaptureFrames_eq stack sized fits rfl, Libunwind.captureFrames_eq stack fits]
  have counted : ((requested stack.frames skip (min size maxDepth)).map Libunwind.safeAddress).length =
      min size ((requested stack.frames skip maxDepth).map (·.pc - 1)).length := by
    rw [← narrowed]
    simp
  refine ⟨counted, ?_⟩
  have ordinary : ((requested stack.frames skip maxDepth).map (·.pc - 1)).take
      ((requested stack.frames skip (min size maxDepth)).map Libunwind.safeAddress).length =
        (requested stack.frames skip (min size maxDepth)).map (·.pc - 1) := by
    rw [counted, ← narrowed, List.map_take]
    simp [List.take_eq_take_iff]
  rw [ordinary]
  simp [List.map_inj_left, Libunwind.safeAddress_eq_iff]

theorem safeCaptureFrames_agrees_iff_at_one :
    (Libunwind.safeCaptureFrames ⟨⟨9, false⟩, [⟨8, false⟩]⟩ [0] 1 0 3).2 =
        min 1 (Libunwind.captureFrames ⟨⟨9, false⟩, [⟨8, false⟩]⟩ 0 3).length ∧
    ((Libunwind.safeCaptureFrames ⟨⟨9, false⟩, [⟨8, false⟩]⟩ [0] 1 0 3).1.take
          (Libunwind.safeCaptureFrames ⟨⟨9, false⟩, [⟨8, false⟩]⟩ [0] 1 0 3).2 =
        (Libunwind.captureFrames ⟨⟨9, false⟩, [⟨8, false⟩]⟩ 0 3).take
          (Libunwind.safeCaptureFrames ⟨⟨9, false⟩, [⟨8, false⟩]⟩ [0] 1 0 3).2 ↔
      ∀ cursor ∈ requested (CallStack.frames ⟨⟨9, false⟩, [⟨8, false⟩]⟩) 0 (min 1 3),
        cursor.isSignalFrame = false) :=
  safeCaptureFrames_agrees_iff ⟨⟨9, false⟩, [⟨8, false⟩]⟩ [0] 1 0 3 rfl (by decide)

/-- A signal frame is reported at its pc by one walk and one byte earlier by the other. -/
theorem safeCaptureFrames_agrees_fails :
    (Libunwind.safeCaptureFrames ⟨⟨9, false⟩, [⟨8, true⟩]⟩ [0] 1 0 3).1 = [8] ∧
      Libunwind.captureFrames ⟨⟨9, false⟩, [⟨8, true⟩]⟩ 0 3 = [7] := by
  decide

end Cpptrace.Unwind
