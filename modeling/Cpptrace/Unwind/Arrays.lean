import Cpptrace.Basic
import Mathlib.Data.List.Basic

/-! The back ends that ask the system for an array of return addresses.

The physical stack is listed from `capture_frames`' own frame outwards. A request
leaves out that frame and `skip` callers, and keeps at most `maxDepth`.
`hardMaxFrames` is the build option `CPPTRACE_HARD_MAX_FRAMES`. The stack is the
list of return addresses the system call walks, innermost first; the call
itself is outside the repository and is modelled by its documentation.
-/

set_option autoImplicit false

namespace Cpptrace.Unwind

section Requests

variable {Frame : Type}

def requested (stack : List Frame) (skip maxDepth : Nat) : List Frame :=
  (stack.drop (skip + 1)).take maxDepth

theorem requested_eq_nil_of_short {stack : List Frame} {skip : Nat}
    (short : stack.length ≤ skip + 1) (maxDepth : Nat) : requested stack skip maxDepth = [] := by
  simp [requested, List.drop_eq_nil_of_le short]

theorem take_requested (stack : List Frame) (skip maxDepth size : Nat) :
    (requested stack skip maxDepth).take size = requested stack skip (min size maxDepth) := by
  simp [requested, List.take_take]

end Requests

/-- `std::vector<frame_ptr>::max_size`. A longer vector is refused with `std::length_error`. -/
def vectorMaxSize : Nat := 0xFFFFFFFFFFFFFFF

def intMax : Nat := 0x7FFFFFFF

def ulongMax : Nat := 0xFFFFFFFF

def toInt32 (value : Nat) : Int := Int.bmod value 0x100000000

def toUlong (value : Nat) : Nat := value % 0x100000000

/-- `backtrace` of `execinfo.h`: the innermost frames, as many as fit. -/
def backtrace (stack : List FramePtr) (size : Int) : List FramePtr :=
  stack.take size.toNat

/-- `CaptureStackBackTrace`: it skips by itself and fills at most the given number of entries. -/
def captureStackBackTrace (stack : List FramePtr) (framesToSkip framesToCapture : Nat) :
    List FramePtr :=
  (stack.drop framesToSkip).take framesToCapture

namespace Execinfo

def captureFrames (hardMaxFrames : Nat) (stack : List FramePtr) (skip maxDepth : Nat) :
    Except Exception (List FramePtr) :=
  let skip := (skip + 1) % sizeModulus
  let addrsSize := (skip + min hardMaxFrames maxDepth) % sizeModulus
  let addrs := backtrace stack (toInt32 addrsSize)
  let nFrames := addrs.length
  -- `n_frames - skip` is an `int` minus a `size_t`, so a short stack wraps
  let count := (nFrames + sizeModulus - skip) % sizeModulus
  if vectorMaxSize < count then
    throw .lengthError
  else
    pure ((addrs.drop skip).map (· - 1))

end Execinfo

namespace Winapi

def captureFrames (hardMaxFrames : Nat) (stack : List FramePtr) (skip maxDepth : Nat) :
    List FramePtr :=
  let addrsSize := (skip + min hardMaxFrames maxDepth) % sizeModulus
  let addrs := captureStackBackTrace stack (toUlong (skip + 1)) (toUlong addrsSize)
  addrs.map (· - 1)

end Winapi

variable {hardMaxFrames skip maxDepth : Nat}

theorem toInt32_of_le {value : Nat} (fits : value ≤ intMax) : toInt32 value = value := by
  unfold intMax at fits
  exact Int.bmod_eq_of_le (by omega) (by omega)

theorem map_pred_injective : Function.Injective (List.map fun address : FramePtr => address - 1) :=
  List.map_injective_iff.mpr fun _ _ same => (UInt64.sub_left_inj 1).mp same

/-- A stack that ends before the skipped frames do makes the frame count negative. -/
theorem Execinfo.captureFrames_eq (stack : List FramePtr)
    (fits : skip + 1 + min hardMaxFrames maxDepth ≤ intMax) :
    Execinfo.captureFrames hardMaxFrames stack skip maxDepth =
      if stack.length < skip + 1 then .error .lengthError
      else .ok ((requested stack skip (min hardMaxFrames maxDepth)).map (· - 1)) := by
  have bound : intMax < sizeModulus := by decide
  have skipFits : (skip + 1) % sizeModulus = skip + 1 := Nat.mod_eq_of_lt (by omega)
  have sizeFits : (skip + 1 + min hardMaxFrames maxDepth) % sizeModulus =
      skip + 1 + min hardMaxFrames maxDepth := Nat.mod_eq_of_lt (by omega)
  simp only [captureFrames, skipFits, sizeFits, backtrace, toInt32_of_le fits, Int.toNat_natCast,
    List.length_take]
  by_cases short : stack.length < skip + 1
  -- the difference is negative, and as a size beyond what a vector can have
  · have wrapped : vectorMaxSize <
        (min (skip + 1 + min hardMaxFrames maxDepth) stack.length + sizeModulus - (skip + 1)) %
          sizeModulus := by
      simp only [vectorMaxSize, intMax, sizeModulus] at *
      omega
    simp [short, wrapped]
    rfl
  · have held : ¬ vectorMaxSize <
        (min (skip + 1 + min hardMaxFrames maxDepth) stack.length + sizeModulus - (skip + 1)) %
          sizeModulus := by
      simp only [vectorMaxSize, intMax, sizeModulus] at *
      omega
    have slice : (stack.take (skip + 1 + min hardMaxFrames maxDepth)).drop (skip + 1) =
        requested stack skip (min hardMaxFrames maxDepth) := by
      rw [List.drop_take, Nat.add_sub_cancel_left, requested]
    simp only [short, held, slice, if_false]
    rfl

/-- The skip is spent twice: on the call and on the size of its buffer. -/
theorem Winapi.captureFrames_eq (stack : List FramePtr)
    (fits : skip + 1 + min hardMaxFrames maxDepth ≤ ulongMax) :
    Winapi.captureFrames hardMaxFrames stack skip maxDepth =
      (requested stack skip (skip + min hardMaxFrames maxDepth)).map (· - 1) := by
  have bound : ulongMax < sizeModulus := by decide
  have sizeFits : (skip + min hardMaxFrames maxDepth) % sizeModulus =
      skip + min hardMaxFrames maxDepth := Nat.mod_eq_of_lt (by omega)
  have skipWord : toUlong (skip + 1) = skip + 1 :=
    Nat.mod_eq_of_lt (by simp only [ulongMax] at fits; omega)
  have sizeWord : toUlong (skip + min hardMaxFrames maxDepth) = skip + min hardMaxFrames maxDepth :=
    Nat.mod_eq_of_lt (by simp only [ulongMax] at fits; omega)
  simp only [captureFrames, sizeFits, skipWord, sizeWord, captureStackBackTrace, requested]

/-- Two takes of one stack agree when both reach its end or name the same number. -/
theorem requested_eq_iff (stack : List FramePtr) (skip : Nat) {depth other : Nat}
    (le : depth ≤ other) :
    requested stack skip other = requested stack skip depth ↔
      depth = other ∨ stack.length ≤ skip + 1 + depth := by
  constructor
  · intro same
    have lengths := congrArg List.length same
    simp only [requested, List.length_take, List.length_drop] at lengths
    omega
  · rintro (rfl | short)
    · rfl
    · have held : (stack.drop (skip + 1)).length ≤ depth := by
        rw [List.length_drop]
        omega
      simp only [requested, List.take_of_length_le held,
        List.take_of_length_le (Nat.le_trans held le)]

/-- Both array back ends return the requested addresses, each on exactly the
stacks and skips its arithmetic allows. The counts of `execinfo` are an `int`. -/
theorem captureFrames_requested_iff (hardMaxFrames : Nat) (stack : List FramePtr)
    (skip maxDepth : Nat) (fits : skip + 1 + min hardMaxFrames maxDepth ≤ ulongMax) :
    (skip + 1 + min hardMaxFrames maxDepth ≤ intMax →
      (Execinfo.captureFrames hardMaxFrames stack skip maxDepth =
          .ok ((requested stack skip (min hardMaxFrames maxDepth)).map (· - 1)) ↔
        skip + 1 ≤ stack.length)) ∧
    (Winapi.captureFrames hardMaxFrames stack skip maxDepth =
        (requested stack skip (min hardMaxFrames maxDepth)).map (· - 1) ↔
      skip = 0 ∨ stack.length ≤ skip + 1 + min hardMaxFrames maxDepth) := by
  constructor
  · intro countable
    rw [Execinfo.captureFrames_eq stack countable]
    split
    · simp; omega
    · simp; omega
  · rw [Winapi.captureFrames_eq stack fits, map_pred_injective.eq_iff,
      requested_eq_iff stack skip (Nat.le_add_left _ _)]
    omega

theorem captureFrames_requested_iff_at_two :
    (Execinfo.captureFrames 400 [9, 8, 7] 1 2 = .ok ((requested [9, 8, 7] 1 (min 400 2)).map (· - 1)) ↔
      1 + 1 ≤ [(9 : FramePtr), 8, 7].length) ∧
    (Winapi.captureFrames 400 [9, 8, 7] 1 2 = (requested [9, 8, 7] 1 (min 400 2)).map (· - 1) ↔
      1 = 0 ∨ [(9 : FramePtr), 8, 7].length ≤ 1 + 1 + min 400 2) := by
  obtain ⟨execinfo, winapi⟩ := captureFrames_requested_iff 400 [9, 8, 7] 1 2 (by decide)
  exact ⟨execinfo (by decide), winapi⟩

/-- Skipping past the end of the stack makes `execinfo` throw; skipping one frame
makes the Windows back end return one frame more than `maxDepth`. -/
theorem captureFrames_requested_fails :
    Execinfo.captureFrames 400 [9, 8] 5 3 ≠ .ok ((requested [9, 8] 5 (min 400 3)).map (· - 1)) ∧
    Winapi.captureFrames 400 [9, 8, 7, 6] 1 1 ≠ (requested [9, 8, 7, 6] 1 (min 400 1)).map (· - 1) ∧
    1 < (Winapi.captureFrames 400 [9, 8, 7, 6] 1 1).length := by
  decide

end Cpptrace.Unwind
