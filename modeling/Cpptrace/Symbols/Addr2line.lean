import Cpptrace.Library.Command
import Cpptrace.Library.Grouping
import Cpptrace.Library.Joined
import Cpptrace.Microfmt.Format
import Cpptrace.Utils.Trim

/-! `addr2line::resolve_frames`, where `addr2line` is the tool.

The frames of an object are resolved by one run of the tool, which prints a line
for each. The output is trimmed before it is split, so a blank line at one of its
ends gets lost, and then none is looked at. A line that does not parse throws out
of the loop over the lines; the handler stands around that loop, so the lines
behind it are not looked at.
-/

set_option autoImplicit false

namespace Cpptrace.Symbols.Addr2line

open Cpptrace.Library

inductive Failure where
  | internal (exception : Exception)
  | invalidArgument
  | outOfRange
  deriving DecidableEq, Repr

section Strings

/-- `str.find(needle)`. -/
def find (needle : Text) : Text → Option Nat
  | [] => if needle = [] then some 0 else none
  | c :: rest => if needle.isPrefixOf (c :: rest) then some 0 else (find needle rest).map (· + 1)

/-- `str.rfind(c)`. -/
def rfind (c : Char) (text : Text) : Option Nat :=
  (text.reverse.findIdx? (· = c)).map (text.length - 1 - ·)

def split (delims : Text) (text : Text) : List Text := text.splitOnP (· ∈ delims)

/-- The sign and the digits that `strtol` reads. -/
def signedDigits (text : Text) : Bool × Text :=
  match text with
  | '-' :: rest => (true, rest.takeWhile Char.isDigit)
  | '+' :: rest => (false, rest.takeWhile Char.isDigit)
  | _ => (false, text.takeWhile Char.isDigit)

def stoi (text : Text) : Except Failure Int :=
  let (negative, digits) := signedDigits (text.dropWhile (· ∈ Utils.whitespace))
  let magnitude : Int := Nat.ofDigitChars 10 digits 0
  let value := if negative then -magnitude else magnitude
  if digits = [] then throw .invalidArgument
  else if value < -0x80000000 ∨ 0x7FFFFFFF < value then throw .outOfRange
  else pure value

end Strings

section Model

def verify (condition : Bool) (expression : String) (message : Option String) : Except Failure Unit :=
  (assertImpl condition .verify expression message).mapError .internal

/-- The assignment of an `int` to a `nullable<std::uint32_t>`. -/
def assigned (value : Int) : Nullable := ⟨UInt32.ofInt value⟩

def symbolBounds (line : Text) : Except Failure (Nat × Nat) := do
  match find " at ".toList line with
  | some atLocation => return (atLocation, atLocation + 4)
  | none =>
      verify (find "?? ".toList line = some 0)
        "line.find(\"?? \") == 0, \"Unexpected edge case while processing addr2line output\""
        (some "Unexpected edge case while processing addr2line output")
      return (2, 3)

def lineColon (line : Text) (filenameStart : Nat) : Except Failure Nat := do
  match rfind ':' line with
  | none => throw (.internal (.internalError .verify "colon != std::string::npos" none))
  | some colon =>
      verify (filenameStart ≤ colon) "colon >= filename_start" none
      return colon

def writeLine (lineNumber : Text) : Command Failure StacktraceFrame Unit := do
  if lineNumber ≠ ['?'] then
    let value ← MonadExcept.ofExcept (stoi lineNumber)
    modify fun frame => { frame with line := assigned value }

def writeFilename (filename : Text) : Command Failure StacktraceFrame Unit := do
  if filename ≠ [] ∧ filename ≠ ['?', '?'] then
    modify fun frame => { frame with filename := filename }

def writeSymbol (symbol : Text) : Command Failure StacktraceFrame Unit := do
  if symbol ≠ [] then
    modify fun frame => { frame with symbol := symbol }

/-- `update_trace`, on the frame of the entry. -/
def updateTrace (line : Text) : Command Failure StacktraceFrame Unit := do
  let (symbolEnd, filenameStart) ← MonadExcept.ofExcept (symbolBounds line)
  let symbol := line.take symbolEnd
  let colon ← MonadExcept.ofExcept (lineColon line filenameStart)
  let filename := (line.drop filenameStart).take (colon - filenameStart)
  let lineNumber := line.drop (colon + 1)
  writeLine lineNumber
  writeFilename filename
  writeSymbol symbol

abbrev CollatedVec := List (ObjectFrame × Nat)

structure Services where
  shouldAbsorbTraceExceptions : Bool
  hasAddr2line : Bool
  /-- What the tool prints for some addresses of an object. -/
  resolveAddresses : (addresses executable : Text) → Except Failure Text

variable (services : Services)

def updateEntry (line : Text) (position : Nat) : Command Failure (List StacktraceFrame) Unit :=
  onPart (fun trace => trace.getD position nullFrame) (fun trace frame => trace.set position frame) (updateTrace line)

def updateEntries : List Text → CollatedVec → Command Failure (List StacktraceFrame) Unit
  | line :: output, entry :: entriesVec => do
      updateEntry line entry.2
      updateEntries output entriesVec
  | _, _ => pure ()

def addressInput (entriesVec : CollatedVec) : Text :=
  entriesVec.flatMap fun entry =>
    (Microfmt.format "{:h}{}".toList [.uint64 entry.1.objectAddress, .char '\n']).text

/-- The `try` block of the loop over the objects. -/
def resolveObject (objectName : Text) (entriesVec : CollatedVec) : Command Failure (List StacktraceFrame) Unit :=
  if objectName = [] ∨ entriesVec = [] then pure ()
  else do
    let printed ← MonadExcept.ofExcept (services.resolveAddresses (addressInput entriesVec) objectName)
    let trimmed ← MonadExcept.ofExcept ((Utils.trim printed).mapError fun _ => .outOfRange)
    let output := split ['\n'] trimmed
    MonadExcept.ofExcept (verify (output.length = entriesVec.length) "output.size() == entries_vec.size()" none)
    updateEntries output entriesVec

def logAndMaybePropagateException (failure : Failure) : Command Failure (List StacktraceFrame) Unit :=
  if services.shouldAbsorbTraceExceptions then pure () else throw failure

def resolveObjects : List (Sigma fun _ : Text => CollatedVec) → Command Failure (List StacktraceFrame) Unit
  | [] => pure ()
  | ⟨objectName, entriesVec⟩ :: rest => do
      tryCatch (resolveObject services objectName entriesVec) (logAndMaybePropagateException services)
      resolveObjects rest

def knownFrame (frame : ObjectFrame) : StacktraceFrame :=
  { nullFrame with
    rawAddress := frame.rawAddress
    objectAddress := frame.objectAddress
    filename := frame.objectPath }

/-- The groups that `collate_frames` makes, in the order its map is walked. -/
abbrev CollatedFrames (frames : List ObjectFrame) := Grouping ObjectFrame.objectPath frames

def resolveFrames (frames : List ObjectFrame) (collated : CollatedFrames frames) :
    Except Failure (List StacktraceFrame) :=
  let trace := frames.map knownFrame
  if services.hasAddr2line then
    match resolveObjects services collated.groups trace with
    | (.ok (), resolved) => .ok resolved
    | (.error failure, _) => .error failure
  else .ok trace

end Model

section Lines

structure LineInfo where
  line : Option Int
  filename : Option Text
  symbol : Option Text

def LineInfo.update (info : LineInfo) (frame : StacktraceFrame) : StacktraceFrame :=
  { frame with
    line := info.line.elim frame.line assigned
    filename := info.filename.getD frame.filename
    symbol := info.symbol.getD frame.symbol }

def given (placeholder text : Text) : Option Text :=
  if text ≠ [] ∧ text ≠ placeholder then some text else none

def lineNumber (text : Text) : Option (Option Int) :=
  if text = ['?'] then some none else (stoi text).toOption.map some

def reading (line : Text) : Option LineInfo := do
  let (symbolEnd, filenameStart) ← (symbolBounds line).toOption
  let colon ← (lineColon line filenameStart).toOption
  let number ← lineNumber (line.drop (colon + 1))
  return {
    line := number
    filename := given ['?', '?'] ((line.drop filenameStart).take (colon - filenameStart))
    symbol := given [] (line.take symbolEnd) }

def ownFrame (line : Text) (frame : StacktraceFrame) : StacktraceFrame :=
  (reading line).elim frame (LineInfo.update · frame)

theorem writeLine_apply (text : Text) (frame : StacktraceFrame) :
    (writeLine text frame).2 = (lineNumber text).elim frame (fun number =>
        { frame with line := number.elim frame.line assigned }) ∧
      (writeLine text frame).1.toBool = (lineNumber text).isSome := by
  unfold writeLine lineNumber
  by_cases unknown : text = ['?']
  · simp [unknown, Except.toBool]
  · cases stoi text with
    | ok value => simp [unknown, Except.toOption, Except.toBool]
    | error failure => simp [unknown, Except.toOption, Except.toBool]

theorem writeFilename_apply (filename : Text) (frame : StacktraceFrame) :
    writeFilename filename frame =
      (.ok (), { frame with filename := (given ['?', '?'] filename).getD frame.filename }) := by
  simp only [writeFilename, given, Command.ite_apply, Command.modify_apply, Command.pure_apply]
  split <;> rfl

theorem writeSymbol_apply (symbol : Text) (frame : StacktraceFrame) :
    writeSymbol symbol frame = (.ok (), { frame with symbol := (given [] symbol).getD frame.symbol }) := by
  simp only [writeSymbol, given, and_self, Command.ite_apply, Command.modify_apply, Command.pure_apply]
  split <;> rfl

theorem updateTrace_reading (line : Text) (frame : StacktraceFrame) :
    (updateTrace line frame).2 = ownFrame line frame ∧
      (updateTrace line frame).1.toBool = (reading line).isSome := by
  unfold updateTrace ownFrame reading
  cases symbolBounds line with
  | error failure => simp [Except.toOption, Except.toBool]
  | ok bounds =>
    obtain ⟨symbolEnd, filenameStart⟩ := bounds
    cases located : lineColon line filenameStart with
    | error failure => simp [located, Except.toOption, Except.toBool]
    | ok colon =>
      have written := writeLine_apply (line.drop (colon + 1)) frame
      simp only [Command.bind_apply, Command.ofExcept_apply, located]
      cases known : lineNumber (line.drop (colon + 1)) with
      | none =>
        cases outcome : (writeLine (line.drop (colon + 1)) frame).1 with
        | ok value => simp [outcome, known, Except.toBool] at written
        | error failure => simp [written.1, known, located, Except.toOption, Except.toBool]
      | some number =>
        cases outcome : (writeLine (line.drop (colon + 1)) frame).1 with
        | error failure => simp [outcome, known, Except.toBool] at written
        | ok value =>
          simp [written.1, known, located, writeFilename_apply, writeSymbol_apply, Except.toOption, Except.toBool,
            LineInfo.update]

def updatedFrames : List Text → List StacktraceFrame → List StacktraceFrame
  | line :: lines, frame :: frames =>
      ownFrame line frame :: if (reading line).isSome then updatedFrames lines frames else frames
  | _, frames => frames

theorem updateEntries_apply (lines : List Text) (inputs : List ObjectFrame) (front states : List StacktraceFrame)
    (counted : lines.length = inputs.length) (sized : states.length = inputs.length) :
    (updateEntries lines (inputs.zipIdx front.length) (front ++ states)).2 = front ++ updatedFrames lines states ∧
      (updateEntries lines (inputs.zipIdx front.length) (front ++ states)).1.toBool =
        lines.all fun line => (reading line).isSome := by
  induction lines generalizing inputs front states with
  | nil =>
    cases inputs with
    | nil => exact ⟨rfl, rfl⟩
    | cons input inputs => cases counted
  | cons line lines ih =>
    cases inputs with
    | nil => cases counted
    | cons input inputs =>
      cases states with
      | nil => cases sized
      | cons frame states =>
        have own := updateTrace_reading line frame
        have later := ih inputs (front ++ [ownFrame line frame]) states (Nat.succ.inj counted) (Nat.succ.inj sized)
        have here : updateEntry line front.length (front ++ frame :: states) =
            ((updateTrace line frame).1, front ++ ownFrame line frame :: states) := by
          simp [updateEntry, onPart, own.1]
        simp only [List.zipIdx_cons, updateEntries, Command.bind_apply, here, updatedFrames, List.all_cons]
        rw [List.length_append, List.length_singleton, List.append_assoc, List.singleton_append] at later
        cases outcome : (updateTrace line frame).1 with
        | error failure =>
          have unread : (reading line).isSome = false := by rw [← own.2, outcome]; rfl
          simp [unread, Except.toBool]
        | ok value =>
          have read : (reading line).isSome = true := by rw [← own.2, outcome]; rfl
          simpa [read] using later

theorem updatedFrames_getElem? (lines : List Text) (frames : List StacktraceFrame)
    (counted : lines.length = frames.length) (index : Nat) :
    (updatedFrames lines frames)[index]? = frames[index]?.map fun frame =>
      if (lines.take index).all fun line => (reading line).isSome then ownFrame (lines.getD index []) frame
      else frame := by
  induction lines generalizing frames index with
  | nil =>
    obtain rfl := List.length_eq_zero_iff.mp counted.symm
    rfl
  | cons line lines ih =>
    cases frames with
    | nil => cases counted
    | cons frame frames =>
      cases index with
      | zero => rfl
      | succ index =>
        rw [updatedFrames, List.getElem?_cons_succ, List.getElem?_cons_succ, List.take_succ_cons, List.all_cons,
          List.getD_cons_succ]
        cases (reading line).isSome with
        | true => simpa using ih frames (Nat.succ.inj counted) index
        | false => simp

def readLines (lines : List Text) : List Text := trimEnds (· ∈ Utils.whitespace) lines

def KeepsLines (lines : List Text) : Prop := VisibleEnds (· ∈ Utils.whitespace) lines

instance (lines : List Text) : Decidable (KeepsLines lines) := inferInstanceAs (Decidable (VisibleEnds _ lines))

def resolvedFrames (lines : List Text) (frames : List StacktraceFrame) : List StacktraceFrame :=
  if KeepsLines lines then updatedFrames (readLines lines) frames else frames

def AllRead (lines : List Text) : Prop := KeepsLines lines ∧ ∀ line ∈ readLines lines, (reading line).isSome

/-- A line that is looked at: no line before it fails. -/
def Reached (lines : List Text) (index : Nat) : Prop :=
  KeepsLines lines ∧ ∀ line ∈ (readLines lines).take index, (reading line).isSome

/-- A line that is looked at says of its frame what it says with the blanks at the ends of the output, and every
other line says nothing. -/
structure Undisturbed (lines : List Text) (frames : List StacktraceFrame) : Prop where
  reached : ∀ index line frame, lines[index]? = some line → frames[index]? = some frame → Reached lines index →
    ownFrame ((readLines lines).getD index []) frame = ownFrame line frame
  unreached : ∀ index line frame, lines[index]? = some line → frames[index]? = some frame → ¬ Reached lines index →
    ownFrame line frame = frame

theorem resolvedFrames_getElem? (lines : List Text) (frames : List StacktraceFrame)
    (counted : lines.length = frames.length) (index : Nat) :
    (Reached lines index → (resolvedFrames lines frames)[index]? =
      frames[index]?.map fun frame => ownFrame ((readLines lines).getD index []) frame) ∧
    (¬ Reached lines index → (resolvedFrames lines frames)[index]? = frames[index]?) := by
  have updated := updatedFrames_getElem? (readLines lines) frames ((length_trimEnds lines).trans counted) index
  have all_iff : ((readLines lines).take index).all (fun line => (reading line).isSome) = true ↔
      ∀ line ∈ (readLines lines).take index, (reading line).isSome := List.all_eq_true
  constructor
  · rintro ⟨kept, before⟩
    rw [resolvedFrames, if_pos kept, updated]
    simp only [if_pos (all_iff.mpr before)]
  · intro unreached
    rw [resolvedFrames]
    split
    next kept =>
      rw [updated]
      simp only [if_neg fun before => unreached ⟨kept, all_iff.mp before⟩, Option.map_id']
    · rfl

theorem resolvedFrames_eq_iff (lines : List Text) (frames : List StacktraceFrame)
    (counted : lines.length = frames.length) :
    resolvedFrames lines frames = List.zipWith ownFrame lines frames ↔ Undisturbed lines frames := by
  have own : ∀ index line frame, lines[index]? = some line → frames[index]? = some frame →
      (List.zipWith ownFrame lines frames)[index]? = some (ownFrame line frame) := fun index line frame said known => by
    rw [List.getElem?_zipWith, said, known]
  constructor
  · intro same
    refine ⟨fun index line frame said known reached => ?_, fun index line frame said known unreached => ?_⟩
    · have written := (resolvedFrames_getElem? lines frames counted index).1 reached
      rw [same, own index line frame said known, known] at written
      exact (Option.some.inj written).symm
    · have written := (resolvedFrames_getElem? lines frames counted index).2 unreached
      rw [same, own index line frame said known, known] at written
      exact Option.some.inj written
  · intro undisturbed
    refine List.ext_getElem? fun index => ?_
    obtain ⟨reached, unreached⟩ := resolvedFrames_getElem? lines frames counted index
    cases known : frames[index]? with
    | none =>
      have beyond : frames.length ≤ index := List.getElem?_eq_none_iff.mp known
      by_cases looked : Reached lines index
      · rw [reached looked, known, List.getElem?_eq_none (by rw [List.length_zipWith]; omega), Option.map_none]
      · rw [unreached looked, known, List.getElem?_eq_none (by rw [List.length_zipWith]; omega)]
    | some frame =>
      have inside : index < lines.length := counted ▸ (List.getElem?_eq_some_iff.mp known).1
      have said : lines[index]? = some lines[index] := List.getElem?_eq_getElem inside
      rw [own index _ frame said known]
      by_cases looked : Reached lines index
      · rw [reached looked, known, Option.map_some, undisturbed.reached index _ frame said known looked]
      · rw [unreached looked, known, undisturbed.unreached index _ frame said known looked]

end Lines

section Frames

variable (services : Services)

/-- A run of the tool that prints a line for each frame of an object. Only a line with some text may lack the
newline behind it. -/
structure ObjectRun (frames : List ObjectFrame) where
  objectName : Text
  named : objectName ≠ []
  sameObject : ∀ frame ∈ frames, frame.objectPath = objectName
  tool : services.hasAddr2line = true
  lines : List Text
  counted : lines.length = frames.length
  unbroken : ∀ line ∈ lines, '\n' ∉ line
  ending : Text
  ended : ending = ['\n'] ∨ ending = [] ∧ lines.getLast? ≠ some []
  prints : services.resolveAddresses (addressInput frames.zipIdx) objectName = .ok (['\n'].intercalate lines ++ ending)
  small : (['\n'].intercalate lines ++ ending).length < Utils.npos

theorem split_eq (text : Text) : split ['\n'] text = text.splitOn '\n' := by
  have same : (fun c : Char => decide (c ∈ ['\n'])) = (· == '\n') := by
    funext c
    simp [Bool.beq_eq_decide_eq]
  rw [split, same]
  rfl

namespace ObjectRun

variable {services} {frames : List ObjectFrame}

/-- Every frame is as its own line leaves it. -/
def EachByOwnLine (run : ObjectRun services frames) (trace : List StacktraceFrame) : Prop :=
  trace = List.zipWith ownFrame run.lines (frames.map knownFrame)

instance (run : ObjectRun services frames) (trace : List StacktraceFrame) : Decidable (run.EachByOwnLine trace) :=
  inferInstanceAs (Decidable (_ = _))

theorem ending_blank (run : ObjectRun services frames) : Blank (· ∈ Utils.whitespace) run.ending := by
  rcases run.ended with same | ⟨same, -⟩
  · rw [same]
    decide
  · rw [same]
    exact nofun

theorem printed_ne_nil (run : ObjectRun services frames) (nonempty : run.lines ≠ []) :
    ['\n'].intercalate run.lines ++ run.ending ≠ [] := by
  intro none
  obtain ⟨empty, unended⟩ := List.append_eq_nil_iff.mp none
  rcases run.ended with same | ⟨-, last⟩
  · rw [same] at unended
    cases unended
  · obtain ⟨line, rest, shape⟩ := List.exists_cons_of_ne_nil nonempty
    rw [shape] at empty last
    rcases eq_or_ne rest [] with rfl | several
    · rw [List.intercalate_singleton] at empty
      exact last (by rw [empty]; rfl)
    · rw [intercalate_cons several] at empty
      simp at empty

theorem lines_ne_nil (run : ObjectRun services frames) (nonempty : frames ≠ []) : run.lines ≠ [] := by
  rw [← List.length_pos_iff, run.counted, List.length_pos_iff]
  exact nonempty

/-- The output comes out of the tool, is trimmed and split, and its lines are counted. -/
theorem resolveObject_apply (run : ObjectRun services frames) (nonempty : frames ≠ []) (trace : List StacktraceFrame) :
    resolveObject services run.objectName frames.zipIdx trace =
      match Utils.trim (['\n'].intercalate run.lines ++ run.ending) with
      | .error _ => (.error .outOfRange, trace)
      | .ok trimmed =>
          if (split ['\n'] trimmed).length = frames.length then
            updateEntries (split ['\n'] trimmed) frames.zipIdx trace
          else (.error (.internal (.internalError .verify "output.size() == entries_vec.size()" none)), trace) := by
  have some : ¬ (run.objectName = [] ∨ frames.zipIdx = []) := by
    simp [run.named, nonempty]
  simp only [resolveObject, if_neg some, Command.bind_apply, Command.ofExcept_apply, run.prints]
  cases Utils.trim (['\n'].intercalate run.lines ++ run.ending) with
  | error failure => rfl
  | ok trimmed =>
    simp only [Except.mapError, List.length_zipIdx, verify, assertImpl]
    by_cases same : (split ['\n'] trimmed).length = frames.length
    · simp only [same, decide_true, if_true]
      rfl
    · simp only [same, decide_false, if_false]
      rfl

theorem resolveObject_kept (run : ObjectRun services frames) (nonempty : frames ≠ []) (kept : KeepsLines run.lines)
    (trace : List StacktraceFrame) :
    resolveObject services run.objectName frames.zipIdx trace =
      updateEntries (readLines run.lines) frames.zipIdx trace := by
  have several := run.lines_ne_nil nonempty
  obtain ⟨first, rest, shape⟩ := List.exists_cons_of_ne_nil several
  have visible : ¬ Blank (· ∈ Utils.whitespace) (['\n'].intercalate run.lines) := by
    have listed : first ∈ run.lines := by
      rw [shape]
      exact List.mem_cons_self
    exact not_blank_intercalate listed (kept.1 first (by rw [shape]; rfl))
  have left : trimmed (· ∈ Utils.whitespace) (['\n'].intercalate run.lines ++ run.ending) =
      ['\n'].intercalate (readLines run.lines) := by
    have none : Blank (· ∈ Utils.whitespace) ([] : Text) := nofun
    have around := trimmed_around none run.ending_blank visible
    rw [List.nil_append] at around
    rw [around, trimmed_intercalate kept, readLines]
  have unbroken : ∀ line ∈ readLines run.lines, '\n' ∉ line := fun line member inside => by
    obtain ⟨whole, listed, part⟩ := sublist_of_mem_trimEnds member
    exact run.unbroken whole listed (part.subset inside)
  have counted : (readLines run.lines).length = frames.length := (length_trimEnds _).trans run.counted
  have someLines : readLines run.lines ≠ [] := by
    rw [← List.length_pos_iff, counted, List.length_pos_iff]
    exact nonempty
  rw [run.resolveObject_apply nonempty, Utils.trim_eq (fun all => visible (blank_append.mp all).1) run.small, left]
  dsimp only
  rw [split_eq, List.splitOn_intercalate '\n' unbroken someLines, if_pos counted]

theorem resolveObject_lost (run : ObjectRun services frames) (nonempty : frames ≠ []) (lost : ¬ KeepsLines run.lines)
    (trace : List StacktraceFrame) :
    ∃ failure, resolveObject services run.objectName frames.zipIdx trace = (.error failure, trace) := by
  rw [run.resolveObject_apply nonempty]
  by_cases blank : Blank (· ∈ Utils.whitespace) (['\n'].intercalate run.lines)
  · have nothing : ∀ c ∈ ['\n'].intercalate run.lines ++ run.ending, c ∈ Utils.whitespace := by
      simpa [Blank] using blank_append.mpr ⟨blank, run.ending_blank⟩
    rw [Utils.trim_of_blank (run.printed_ne_nil (run.lines_ne_nil nonempty)) nothing run.small]
    exact ⟨_, rfl⟩
  · have fewer := length_splitOn_trimmed_lt run.unbroken (by decide) lost run.ending_blank blank
    rw [run.counted] at fewer
    rw [Utils.trim_eq (fun all => blank (blank_append.mp all).1) run.small]
    dsimp only
    rw [split_eq, if_neg (Nat.ne_of_lt fewer)]
    exact ⟨_, rfl⟩

theorem resolveObject_resolved (run : ObjectRun services frames) (nonempty : frames ≠ []) :
    (resolveObject services run.objectName frames.zipIdx (frames.map knownFrame)).2 =
        resolvedFrames run.lines (frames.map knownFrame) ∧
      ((resolveObject services run.objectName frames.zipIdx (frames.map knownFrame)).1.toBool = true ↔
        AllRead run.lines) := by
  by_cases kept : KeepsLines run.lines
  · have counted : (readLines run.lines).length = frames.length := (length_trimEnds _).trans run.counted
    have updated := updateEntries_apply (readLines run.lines) frames [] (frames.map knownFrame) counted
        (List.length_map _)
    simp only [List.length_nil, List.nil_append] at updated
    rw [run.resolveObject_kept nonempty kept, resolvedFrames, if_pos kept, updated.1, updated.2, List.all_eq_true]
    exact ⟨rfl, (and_iff_right kept).symm⟩
  · obtain ⟨failure, lost⟩ := run.resolveObject_lost nonempty kept (frames.map knownFrame)
    rw [lost, resolvedFrames, if_neg kept]
    exact ⟨rfl, nofun, fun all => absurd all.1 kept⟩

theorem resolveFrames_eq_ok_iff (run : ObjectRun services frames) (collated : CollatedFrames frames)
    (trace : List StacktraceFrame) :
    resolveFrames services frames collated = .ok trace ↔
      (services.shouldAbsorbTraceExceptions = true ∨ AllRead run.lines) ∧
        trace = resolvedFrames run.lines (frames.map knownFrame) := by
  rcases eq_or_ne frames [] with rfl | nonempty
  · have none : run.lines = [] := List.length_eq_zero_iff.mp run.counted
    have groups : collated.groups = [] := collated.groups_of_nil
    have all : AllRead run.lines := by
      rw [none]
      exact ⟨⟨nofun, nofun⟩, nofun⟩
    have nothing : resolveFrames services [] collated = .ok [] := by
      simp only [resolveFrames, run.tool, if_true, groups, resolveObjects]
      rfl
    have unchanged : resolvedFrames run.lines ([].map knownFrame) = [] := by
      rw [none]
      rfl
    rw [nothing, unchanged, and_iff_right (.inr all)]
    exact ⟨fun same => (Except.ok.inj same).symm, fun same => congrArg Except.ok same.symm⟩
  · have groups := collated.groups_of_same_key run.sameObject nonempty
    obtain ⟨left, passes⟩ := run.resolveObject_resolved nonempty
    simp only [resolveFrames, run.tool, if_true, groups, resolveObjects, Command.bind_apply, Command.tryCatch_apply,
      Command.pure_apply]
    rw [← left]
    generalize resolveObject services run.objectName frames.zipIdx (frames.map knownFrame) = ran at passes ⊢
    obtain ⟨outcome, after⟩ := ran
    have same : (.ok after : Except Failure (List StacktraceFrame)) = .ok trace ↔ trace = after :=
      ⟨fun same => (Except.ok.inj same).symm, fun same => congrArg Except.ok same.symm⟩
    cases outcome with
    | ok value => exact same.trans (and_iff_right (.inr (passes.mp rfl))).symm
    | error failure =>
      have some : ¬ AllRead run.lines := fun all => nomatch passes.mpr all
      cases absorbs : services.shouldAbsorbTraceExceptions with
      | true =>
        simp only [logAndMaybePropagateException, absorbs, if_true, true_or, true_and]
        exact same
      | false => simp [logAndMaybePropagateException, absorbs, some]

end ObjectRun

/-- Where exceptions are absorbed a trace is returned. A returned trace has each frame as its own line leaves it if
and only if the lines that are looked at say the same without the blanks at the ends of the output, and the other
lines say nothing. -/
theorem resolveFrames_each_iff (frames : List ObjectFrame) (collated : CollatedFrames frames)
    (run : ObjectRun services frames) :
    (services.shouldAbsorbTraceExceptions = true → ∃ trace, resolveFrames services frames collated = .ok trace) ∧
      ((∀ trace, resolveFrames services frames collated = .ok trace → run.EachByOwnLine trace) ↔
        (services.shouldAbsorbTraceExceptions = true ∨ AllRead run.lines →
          Undisturbed run.lines (frames.map knownFrame))) := by
  have sized : run.lines.length = (frames.map knownFrame).length := by
    rw [List.length_map]
    exact run.counted
  have exact_iff := resolvedFrames_eq_iff run.lines (frames.map knownFrame) sized
  simp only [run.resolveFrames_eq_ok_iff collated, ObjectRun.EachByOwnLine]
  refine ⟨fun absorbs => ⟨_, .inl absorbs, rfl⟩, fun each returned => ?_, fun undisturbed trace returned => ?_⟩
  · exact exact_iff.mp (each _ ⟨returned, rfl⟩)
  · rw [returned.2]
    exact exact_iff.mpr (undisturbed returned.1)

end Frames

/-- A tool that says something else than it should before it resolves a frame. -/
def chattyServices : Services where
  shouldAbsorbTraceExceptions := true
  hasAddr2line := true
  resolveAddresses _ _ := .ok "warning\nmain at a.cpp:3\n".toList

def twoFrames : List ObjectFrame := [⟨0x401100, 0x1100, "a.out".toList⟩, ⟨0x401200, 0x1200, "a.out".toList⟩]

def twoCollated : CollatedFrames twoFrames := ⟨(groupBy ObjectFrame.objectPath twoFrames).entries, .refl _⟩

def chattyRun : ObjectRun chattyServices twoFrames where
  objectName := "a.out".toList
  named := by decide
  sameObject := by simp [twoFrames]
  tool := rfl
  lines := ["warning".toList, "main at a.cpp:3".toList]
  counted := rfl
  unbroken := by decide
  ending := ['\n']
  ended := .inl rfl
  prints := rfl
  small := by decide

theorem resolveFrames_each_iff_at_chatty :
    (chattyServices.shouldAbsorbTraceExceptions = true →
        ∃ trace, resolveFrames chattyServices twoFrames twoCollated = .ok trace) ∧
      ((∀ trace, resolveFrames chattyServices twoFrames twoCollated = .ok trace → chattyRun.EachByOwnLine trace) ↔
        (chattyServices.shouldAbsorbTraceExceptions = true ∨ AllRead chattyRun.lines →
          Undisturbed chattyRun.lines (twoFrames.map knownFrame))) :=
  resolveFrames_each_iff chattyServices twoFrames twoCollated chattyRun

/-- The line of `main` is fine, and its frame is left without a symbol. -/
theorem resolveFrames_chatty :
    resolveFrames chattyServices twoFrames twoCollated = .ok (twoFrames.map knownFrame) ∧
      ¬ chattyRun.EachByOwnLine (twoFrames.map knownFrame) :=
  ⟨by decide +kernel, by decide +kernel⟩

end Cpptrace.Symbols.Addr2line
