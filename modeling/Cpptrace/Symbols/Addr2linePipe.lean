import Cpptrace.Microfmt.Format

/-! Collecting the output of `addr2line` from a pipe.

The pipe answers each `read` with some bytes, with none at the end of the
output, or with an error. The loop keeps the answer as a `std::size_t`, where
the error is a count that no buffer has room for.
-/

set_option autoImplicit false

namespace Cpptrace.Symbols.Addr2line

def bufferSize : Nat := 4096

structure Buffer where
  contents : Text
  size : contents.length = bufferSize

inductive ReadResult where
  | bytes (chunk : Text) (fits : chunk.length ≤ bufferSize)
  | error

def ReadResult.returned : ReadResult → Int
  | .bytes chunk _ => chunk.length
  | .error => -1

def ReadResult.chunk : ReadResult → Text
  | .bytes chunk _ => chunk
  | .error => []

theorem ReadResult.chunk_fits (result : ReadResult) : result.chunk.length ≤ bufferSize := by
  cases result with
  | bytes chunk fits => exact fits
  | error => exact Nat.zero_le _

def Buffer.fill (buffer : Buffer) (result : ReadResult) : Buffer where
  contents := result.chunk ++ buffer.contents.drop result.chunk.length
  size := by
    have fits := result.chunk_fits
    rw [List.length_append, List.length_drop, buffer.size]
    omega

inductive Trap where
  /-- Bytes from outside the buffer are appended, which is undefined. -/
  | outsideBuffer
  /-- The loop asks for another `read`. -/
  | waiting
  deriving DecidableEq, Repr

/-- `output.insert(output.end(), buffer, buffer + count)`. -/
def insertBytes (output : Text) (buffer : Buffer) (count : Nat) : Except Trap Text :=
  if count ≤ buffer.contents.length then pure (output ++ buffer.contents.take count)
  else throw .outsideBuffer

/-- The reading loop of `resolve_addresses`, on the results that `read` gives in turn. -/
def readLoop (buffer : Buffer) (output : Text) : List ReadResult → Except Trap Text
  | [] => throw .waiting
  | result :: rest => do
      let buffer := buffer.fill result
      -- the result is stored in an unsigned variable before it is compared
      let count := Microfmt.toSize result.returned
      if 0 < count then
        let output ← insertBytes output buffer count
        readLoop buffer output rest
      else return output

/-- A behaviour of the pipe: reads that give bytes or fail, and a last one at the end of the output
or with an error. -/
structure PipeRun where
  reads : List ReadResult
  last : ReadResult
  reading : ∀ result ∈ reads, result.returned ≠ 0
  ends : last.returned ≤ 0

namespace PipeRun

def results (run : PipeRun) : List ReadResult := run.reads ++ [run.last]

def output (run : PipeRun) : Text := run.results.flatMap ReadResult.chunk

end PipeRun

theorem toSize_bytes {count : Nat} (fits : count ≤ bufferSize) : Microfmt.toSize count = count := by
  unfold Microfmt.toSize sizeModulus
  unfold bufferSize at fits
  omega

theorem bufferSize_lt_toSize_error : bufferSize < Microfmt.toSize ReadResult.error.returned := by
  decide

theorem readLoop_bytes (buffer : Buffer) (output chunk : Text) (fits : chunk.length ≤ bufferSize)
    (nonempty : chunk ≠ []) (rest : List ReadResult) :
    readLoop buffer output (.bytes chunk fits :: rest) =
      readLoop (buffer.fill (.bytes chunk fits)) (output ++ chunk) rest := by
  have positive : 0 < chunk.length := List.length_pos_iff.mpr nonempty
  have counted : Microfmt.toSize (ReadResult.bytes chunk fits).returned = chunk.length := toSize_bytes fits
  have stored : (buffer.fill (.bytes chunk fits)).contents.take chunk.length = chunk := List.take_left
  have inside : chunk.length ≤ (buffer.fill (.bytes chunk fits)).contents.length := by
    rw [Buffer.size]
    exact fits
  simp only [readLoop, counted, if_pos positive, insertBytes, if_pos inside, stored]
  rfl

theorem readLoop_end (buffer : Buffer) (output : Text) (fits : ([] : Text).length ≤ bufferSize)
    (rest : List ReadResult) : readLoop buffer output (.bytes [] fits :: rest) = .ok output := rfl

theorem readLoop_error (buffer : Buffer) (output : Text) (rest : List ReadResult) :
    readLoop buffer output (.error :: rest) = .error .outsideBuffer := by
  have beyond := bufferSize_lt_toSize_error
  have outside : ¬ Microfmt.toSize ReadResult.error.returned ≤ (buffer.fill .error).contents.length := by
    rw [Buffer.size]
    exact Nat.not_le_of_lt beyond
  simp only [readLoop, if_pos (Nat.zero_lt_of_lt beyond), insertBytes, if_neg outside]
  rfl

theorem readLoop_succeeds (run : List ReadResult) (last : ReadResult) (reading : ∀ result ∈ run, result.returned ≠ 0)
    (ends : last.returned ≤ 0) (buffer : Buffer) (output : Text) :
    (ReadResult.error ∉ run ++ [last] →
      readLoop buffer output (run ++ [last]) = .ok (output ++ (run ++ [last]).flatMap ReadResult.chunk)) ∧
    (ReadResult.error ∈ run ++ [last] → readLoop buffer output (run ++ [last]) = .error .outsideBuffer) := by
  induction run generalizing buffer output with
  | nil =>
    cases last with
    | error => exact ⟨fun clean => absurd List.mem_cons_self clean, fun _ => readLoop_error buffer output []⟩
    | bytes chunk fits =>
      obtain rfl : chunk = [] := by
        simpa [ReadResult.returned] using ends
      exact ⟨fun _ => by simp [readLoop_end, ReadResult.chunk], fun member => by simp at member⟩
  | cons result rest ih =>
    cases result with
    | error => exact ⟨fun clean => absurd List.mem_cons_self clean, fun _ => readLoop_error buffer output _⟩
    | bytes chunk fits =>
      have nonempty : chunk ≠ [] := by
        simpa [ReadResult.returned] using reading _ List.mem_cons_self
      have later := ih (fun result member => reading result (List.mem_cons_of_mem _ member))
        (buffer.fill (.bytes chunk fits)) (output ++ chunk)
      rw [List.cons_append, readLoop_bytes buffer output chunk fits nonempty]
      simpa [ReadResult.chunk] using later

/-- The loop gives the bytes of the successful reads if and only if no read fails; a failed read
makes it append from outside the buffer. -/
theorem readLoop_eq_output_iff (buffer : Buffer) (run : PipeRun) :
    readLoop buffer [] run.results = .ok run.output ↔ ReadResult.error ∉ run.results := by
  have outcome := readLoop_succeeds run.reads run.last run.reading run.ends buffer []
  constructor
  · intro collected failed
    have trapped := outcome.2 failed
    rw [PipeRun.results] at collected
    rw [trapped] at collected
    cases collected
  · intro clean
    exact outcome.1 clean

/-- One line of output, and a signal while the loop waits for more. -/
def interruptedRun : PipeRun where
  reads := [.bytes "main at a.cpp:3\n".toList (by decide), .error]
  last := .bytes [] (by decide)
  reading := by simp [ReadResult.returned]
  ends := by simp [ReadResult.returned]

def blankBuffer : Buffer := ⟨List.replicate bufferSize '\x00', List.length_replicate⟩

theorem readLoop_interrupted :
    readLoop blankBuffer [] interruptedRun.results = .error .outsideBuffer ∧
      readLoop blankBuffer [] interruptedRun.results ≠ .ok interruptedRun.output := by
  have outcome := readLoop_succeeds interruptedRun.reads interruptedRun.last interruptedRun.reading
    interruptedRun.ends blankBuffer []
  have trapped : readLoop blankBuffer [] interruptedRun.results = .error .outsideBuffer :=
    outcome.2 (by simp [interruptedRun])
  refine ⟨trapped, ?_⟩
  rw [trapped]
  nofun

end Cpptrace.Symbols.Addr2line
