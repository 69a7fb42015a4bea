import Cpptrace.Basic
import Mathlib.Data.List.Basic

/-! `fill_blanks`: what one resolver leaves out is asked of another one.

The frames to ask for are picked out once to collect their addresses, and once more
while they are overwritten. Only a counter says which answer is for which frame.
-/

set_option autoImplicit false

namespace Cpptrace.Symbols

/-- A failed `ASSERT` is an exception. There is no result where the answers are read beyond their end. -/
abbrev Filling (α : Type) := ExceptT Exception Option α

def isIncomplete (frame : StacktraceFrame) : Bool := frame.symbol.isEmpty || frame.filename.isEmpty

def requestedAddresses (vec : List StacktraceFrame) : List FramePtr :=
  (vec.filter isIncomplete).map StacktraceFrame.rawAddress

section Loop

variable (newFrames : List StacktraceFrame)

def fillFrame (i : Nat) (frame : StacktraceFrame) : Filling StacktraceFrame :=
  if frame.symbol.isEmpty && frame.filename.isEmpty then liftM newFrames[i]?
  else if frame.symbol.isEmpty && !frame.filename.isEmpty then do
    let answer ← liftM newFrames[i]?
    return { frame with symbol := answer.symbol }
  else do
    MonadExcept.ofExcept (assertImpl (!frame.symbol.isEmpty && frame.filename.isEmpty) .assert
      "!frame.symbol.empty() && frame.filename.empty()" none)
    let answer ← liftM newFrames[i]?
    return { frame with filename := answer.filename, line := answer.line, column := answer.column }

def fillFrom : (i : Nat) → List StacktraceFrame → Filling (List StacktraceFrame)
  | _, [] => return []
  | i, frame :: rest =>
    if isIncomplete frame then do
      let filled ← fillFrame newFrames i frame
      let others ← fillFrom (i + 1) rest
      return filled :: others
    else do
      let others ← fillFrom i rest
      return frame :: others

end Loop

def fillBlanks (vec : List StacktraceFrame) (resolver : List FramePtr → List StacktraceFrame) :
    Filling (List StacktraceFrame) :=
  fillFrom (resolver (requestedAddresses vec)) 0 vec

/-- A frame with what it lacks taken from an answer: all of it, or what goes with the part it lacks. -/
structure Completed (frame answer result : StacktraceFrame) : Prop where
  complete : frame.symbol ≠ [] → frame.filename ≠ [] → result = frame
  symbol : frame.symbol = [] → frame.filename ≠ [] → result = { frame with symbol := answer.symbol }
  filename : frame.symbol ≠ [] → frame.filename = [] →
    result = { frame with filename := answer.filename, line := answer.line, column := answer.column }
  both : frame.symbol = [] → frame.filename = [] → result = answer

variable {newFrames : List StacktraceFrame} {i : Nat} {frame answer : StacktraceFrame}

theorem isIncomplete_eq_false_iff : isIncomplete frame = false ↔ frame.symbol ≠ [] ∧ frame.filename ≠ [] := by
  simp [isIncomplete]

/-- The case that is left for the assertion is the one it asserts. -/
theorem fillFrame_completed (answered : newFrames[i]? = some answer) (incomplete : isIncomplete frame = true) :
    ∃ result, fillFrame newFrames i frame = pure result ∧ Completed frame answer result := by
  obtain ⟨raw, object, line, column, filename, symbol, isInline⟩ := frame
  unfold fillFrame
  rw [answered]
  cases symbol with
  | nil =>
    cases filename with
    | nil => exact ⟨answer, rfl, ⟨nofun, nofun, nofun, fun _ _ => rfl⟩⟩
    | cons c rest => exact ⟨_, rfl, ⟨nofun, fun _ _ => rfl, nofun, nofun⟩⟩
  | cons c rest =>
    obtain rfl : filename = [] := by simpa [isIncomplete] using incomplete
    exact ⟨_, rfl, ⟨nofun, nofun, fun _ _ => rfl, nofun⟩⟩

/-- The answer to a frame is as far in as there are incomplete frames before it. -/
theorem fillFrom_completed (vec : List StacktraceFrame) (i : Nat)
    (enough : i + vec.countP isIncomplete ≤ newFrames.length) :
    ∃ filled : List StacktraceFrame, fillFrom newFrames i vec = pure filled ∧ filled.length = vec.length ∧
      ∀ j frame, vec[j]? = some frame → ∃ result, filled[j]? = some result ∧
        if isIncomplete frame then
          ∃ answer, newFrames[i + (vec.take j).countP isIncomplete]? = some answer ∧ Completed frame answer result
        else result = frame := by
  induction vec generalizing i with
  | nil => exact ⟨[], rfl, rfl, nofun⟩
  | cons first rest ih =>
    rw [fillFrom]
    cases incomplete : isIncomplete first with
    | false =>
      -- the counter stays
      rw [List.countP_cons_of_neg (by simp [incomplete])] at enough
      obtain ⟨others, ran, same, each⟩ := ih i enough
      refine ⟨first :: others, ?_, congrArg (· + 1) same, fun j frame found => ?_⟩
      · rw [ran]
        rfl
      · cases j with
        | zero =>
          obtain rfl := Option.some.inj found
          exact ⟨first, rfl, by rw [incomplete]; rfl⟩
        | succ j =>
          rw [List.take_succ_cons, List.countP_cons_of_neg (by simp [incomplete])]
          exact each j frame found
    | true =>
      rw [List.countP_cons_of_pos incomplete] at enough
      obtain ⟨others, ran, same, each⟩ := ih (i + 1) (by omega)
      have inside : i < newFrames.length := by omega
      obtain ⟨filled, ranFirst, completed⟩ := fillFrame_completed (List.getElem?_eq_getElem inside) incomplete
      refine ⟨filled :: others, ?_, congrArg (· + 1) same, fun j frame found => ?_⟩
      · rw [ranFirst, ran]
        rfl
      · cases j with
        | zero =>
          obtain rfl := Option.some.inj found
          exact ⟨filled, rfl, by rw [incomplete]; exact ⟨_, List.getElem?_eq_getElem inside, completed⟩⟩
        | succ j =>
          rw [List.take_succ_cons, List.countP_cons_of_pos incomplete, ← Nat.add_assoc, Nat.add_right_comm]
          exact each j frame found

/-- A frame that is asked for stands among the requests behind those before it. -/
theorem requestedAddresses_getElem? (vec : List StacktraceFrame) (j : Nat) (found : vec[j]? = some frame)
    (incomplete : isIncomplete frame = true) :
    (requestedAddresses vec)[(vec.take j).countP isIncomplete]? = some frame.rawAddress := by
  induction vec generalizing j with
  | nil => cases found
  | cons first rest ih =>
    unfold requestedAddresses at ih ⊢
    cases j with
    | zero =>
      obtain rfl := Option.some.inj found
      rw [List.filter_cons_of_pos incomplete]
      rfl
    | succ j =>
      have later := ih j found
      cases firstIncomplete : isIncomplete first with
      | false =>
        have skipped : ¬ isIncomplete first = true := by simp [firstIncomplete]
        rw [List.take_succ_cons, List.countP_cons_of_neg skipped, List.filter_cons_of_neg skipped]
        exact later
      | true =>
        rw [List.take_succ_cons, List.countP_cons_of_pos firstIncomplete, List.filter_cons_of_pos firstIncomplete]
        exact later

/-- Every frame is completed from the answer to its own address, and a complete one is not touched. -/
theorem fillBlanks_completed (vec : List StacktraceFrame) (resolver : List FramePtr → List StacktraceFrame)
    (answers : ∀ addresses, (resolver addresses).length = addresses.length) :
    ∃ filled : List StacktraceFrame, fillBlanks vec resolver = pure filled ∧ filled.length = vec.length ∧
      ∀ j frame, vec[j]? = some frame → ∃ result, filled[j]? = some result ∧
        (frame.symbol ≠ [] ∧ frame.filename ≠ [] → result = frame) ∧
        (frame.symbol = [] ∨ frame.filename = [] →
          let place := (vec.take j).countP isIncomplete
          (requestedAddresses vec)[place]? = some frame.rawAddress ∧
            ∃ answer, (resolver (requestedAddresses vec))[place]? = some answer ∧ Completed frame answer result) := by
  have enough : 0 + vec.countP isIncomplete ≤ (resolver (requestedAddresses vec)).length := by
    refine Nat.le_of_eq ?_
    rw [answers, requestedAddresses, List.length_map, Nat.zero_add, List.countP_eq_length_filter]
  obtain ⟨filled, ran, same, each⟩ := fillFrom_completed vec 0 enough
  refine ⟨filled, ran, same, fun j frame found => ?_⟩
  obtain ⟨result, there, outcome⟩ := each j frame found
  refine ⟨result, there, fun complete => ?_, fun incomplete => ?_⟩
  · rwa [isIncomplete_eq_false_iff.mpr complete, if_neg Bool.false_ne_true] at outcome
  · have asked : isIncomplete frame = true := by simpa [isIncomplete] using incomplete
    rw [if_pos asked, Nat.zero_add] at outcome
    obtain ⟨answer, answered, completed⟩ := outcome
    exact ⟨requestedAddresses_getElem? vec j found asked, answer, answered, completed⟩

def mainResolver (addresses : List FramePtr) : List StacktraceFrame :=
  addresses.map fun address => ⟨address, address, ⟨3⟩, ⟨1⟩, "main.cpp".toList, "main".toList, false⟩

/-- A complete frame, and one that has no file name. -/
def halfResolved : List StacktraceFrame :=
  [⟨6, 6, ⟨1⟩, .null, "f.cpp".toList, "f".toList, false⟩, ⟨7, 7, .null, .null, [], "main".toList, false⟩]

theorem fillBlanks_completed_at_main :
    ∃ filled : List StacktraceFrame, fillBlanks halfResolved mainResolver = pure filled ∧
      filled[1]? = some ⟨7, 7, ⟨3⟩, ⟨1⟩, "main.cpp".toList, "main".toList, false⟩ := by
  obtain ⟨filled, ran, -, each⟩ := fillBlanks_completed halfResolved mainResolver fun _ => List.length_map _
  obtain ⟨result, there, -, incomplete⟩ := each 1 _ rfl
  obtain ⟨-, answer, answered, completed⟩ := incomplete (.inr rfl)
  obtain rfl := Option.some.inj answered
  exact ⟨filled, ran, there.trans (congrArg some (completed.filename (by decide) rfl))⟩

end Cpptrace.Symbols
