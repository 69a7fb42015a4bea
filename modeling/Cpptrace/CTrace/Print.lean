import Cpptrace.Formatting.Trace
import Mathlib.Data.List.Induction

/-! The two printers of the C interface.

`ctrace_stacktrace_to_string` goes through the default formatter;
`ctrace_print_stacktrace` writes the text of a trace by itself. Streams are not
terminals, and the strings of a frame are not null.
-/

set_option autoImplicit false

namespace Cpptrace.CTrace

open Cpptrace.Formatting

structure CtraceStacktraceFrame where
  rawAddress : FramePtr
  objectAddress : FramePtr
  line : UInt32
  column : UInt32
  filename : Text
  symbol : Text
  isInline : Int8
  deriving DecidableEq, Repr

def invalidPos : UInt32 := 0xFFFFFFFF

def isEmpty (pos : UInt32) : Bool := pos == invalidPos

def convertStacktraceFrame (frame : CtraceStacktraceFrame) : StacktraceFrame where
  rawAddress := frame.rawAddress
  objectAddress := frame.objectAddress
  line := ⟨if isEmpty frame.line then Nullable.null.rawValue else frame.line⟩
  column := ⟨if isEmpty frame.column then Nullable.null.rawValue else frame.column⟩
  filename := frame.filename
  symbol := frame.symbol
  isInline := frame.isInline ≠ 0

def cppConvert (trace : List CtraceStacktraceFrame) : List StacktraceFrame :=
  trace.map convertStacktraceFrame

def ctraceStacktraceToString (renderers : Renderers) (trace : List CtraceStacktraceFrame) (useColor : Bool) : Text :=
  format renderers {} (cppConvert trace) (some useColor)

section Printing

variable (useColor : Bool)

def printAddress (frame : CtraceStacktraceFrame) : Text :=
  if frame.isInline ≠ 0 then alignRight (addressWidth + 2) ' ' "(inlined)".toList
  else
    ColorSetting.blue useColor ++ "0x".toList ++ alignRight addressWidth '0' (Nat.toDigits 16 frame.rawAddress.toNat)
      ++ ColorSetting.reset useColor

def printSymbol (frame : CtraceStacktraceFrame) : Text :=
  if frame.symbol ≠ [] then
    " in ".toList ++ ColorSetting.yellow useColor ++ frame.symbol ++ ColorSetting.reset useColor
  else []

def printPosition (pos : UInt32) : Text :=
  ":".toList ++ ColorSetting.blue useColor ++ Nat.toDigits 10 pos.toNat ++ ColorSetting.reset useColor

def printLocation (frame : CtraceStacktraceFrame) : Text :=
  if frame.filename ≠ [] then
    " at ".toList ++ ColorSetting.green useColor ++ frame.filename ++ ColorSetting.reset useColor
      ++ (if isEmpty frame.line then []
          else
            printPosition useColor frame.line
              ++ (if isEmpty frame.column then [] else printPosition useColor frame.column))
  else []

def printFrame (width i : Nat) (frame : CtraceStacktraceFrame) : Text :=
  "#".toList ++ alignLeft width (Nat.toDigits 10 i) ++ " ".toList ++ printAddress useColor frame
    ++ printSymbol useColor frame ++ printLocation useColor frame ++ "\n".toList

def ctracePrintStacktrace (trace : List CtraceStacktraceFrame) : Text :=
  "Stack trace (most recent call first):\n".toList ++
    if trace.isEmpty then "<empty trace>\n".toList
    else
      let width := nDigits (UInt32.ofNat (trace.length - 1)).toNat
      trace.zipIdx.flatMap fun entry => printFrame useColor width entry.2 entry.1

end Printing

def IsBare (frame : CtraceStacktraceFrame) : Prop := frame.symbol = [] ∧ frame.filename = []

instance (frame : CtraceStacktraceFrame) : Decidable (IsBare frame) := inferInstanceAs (Decidable (_ ∧ _))

/-- A frame that both printers write the same way, wherever it stands in a trace. -/
structure PrintedAlike (frame : CtraceStacktraceFrame) : Prop where
  notInline : frame.isInline = 0
  notBare : ¬ IsBare frame
  notMachinery : isExceptionMachinery (convertStacktraceFrame frame) = false

section Lines

variable (renderers : Renderers) (useColor : Bool) (width counter : Nat) (frame : CtraceStacktraceFrame)

def stringLine : Text :=
  rendering renderers {} useColor width counter 0 (convertStacktraceFrame frame) ++ "\n".toList

def printBody : Text := printSymbol useColor frame ++ printLocation useColor frame

def stringAddress : Text := (writeAddress {} (convertStacktraceFrame frame) useColor).1

theorem hasValue_convert (pos : UInt32) :
    (Nullable.mk (if isEmpty pos then Nullable.null.rawValue else pos)).hasValue = !isEmpty pos := by
  unfold isEmpty Nullable.hasValue Nullable.null Nullable.nullValue invalidPos
  by_cases same : pos = 0xFFFFFFFF <;> simp [same, bne]

theorem writeSourceLocation_eq (named : frame.filename ≠ []) :
    ' ' :: writeSourceLocation {} (convertStacktraceFrame frame) useColor = printLocation useColor frame := by
  have line : (convertStacktraceFrame frame).line.hasValue = !isEmpty frame.line := hasValue_convert frame.line
  have column : (convertStacktraceFrame frame).column.hasValue = !isEmpty frame.column := hasValue_convert frame.column
  have rawLine (known : isEmpty frame.line = false) : (convertStacktraceFrame frame).line.rawValue = frame.line := by
    rw [convertStacktraceFrame, known]
    rfl
  have rawColumn (known : isEmpty frame.column = false) :
      (convertStacktraceFrame frame).column.rawValue = frame.column := by
    rw [convertStacktraceFrame, known]
    rfl
  unfold writeSourceLocation printLocation
  rw [if_pos named, line, column]
  cases emptyLine : isEmpty frame.line with
  | true => rfl
  | false =>
    rw [rawLine emptyLine]
    cases emptyColumn : isEmpty frame.column with
    | true => rfl
    | false =>
      rw [rawColumn emptyColumn]
      rfl

theorem stringLine_eq :
    stringLine renderers useColor width counter frame =
      (writeFrameNumber width counter).1 ++ (stringAddress useColor frame
        ++ ((if IsBare frame then " ".toList else printBody useColor frame) ++ "\n".toList)) := by
  have symbol : (convertStacktraceFrame frame).symbol = frame.symbol := rfl
  have filename : (convertStacktraceFrame frame).filename = frame.filename := rfl
  simp only [stringLine, rendering, writeFrameNumber, isFilteredOut, transformed, writeSnippet, writeFrame,
    stringAddress, symbol, filename]
  by_cases named : frame.symbol = [] <;> by_cases located : frame.filename = []
  · simp [IsBare, named, located]
  · simp [IsBare, named, located, printBody, printSymbol, ← writeSourceLocation_eq useColor frame located]
  · simp [IsBare, named, located, printBody, printSymbol, printLocation, writeSymbol, symbol]
  · simp [IsBare, named, located, printBody, printSymbol, ← writeSourceLocation_eq useColor frame located, writeSymbol,
      symbol]

theorem printFrame_eq :
    printFrame useColor width counter frame =
      (writeFrameNumber width counter).1
        ++ (printAddress useColor frame ++ (printBody useColor frame ++ "\n".toList)) := by
  simp only [printFrame, writeFrameNumber, printBody, List.append_assoc]

theorem stringAddress_of_notInline (notInline : frame.isInline = 0) :
    stringAddress useColor frame = printAddress useColor frame := by
  simp [stringAddress, printAddress, writeAddress, convertStacktraceFrame, notInline]

theorem printFrame_eq_stringLine (notInline : frame.isInline = 0) (notBare : ¬ IsBare frame) :
    printFrame useColor width counter frame = stringLine renderers useColor width counter frame := by
  rw [stringLine_eq, printFrame_eq, stringAddress_of_notInline useColor frame notInline, if_neg notBare]

end Lines

section Suffixes

variable {useColor : Bool} {frame : CtraceStacktraceFrame}

/-- The number before the last spaces of a text can be read off it. -/
theorem number_inj {front front' : Text} {width i j : Nat}
    (same : front ++ (writeFrameNumber width i).1 = front' ++ (writeFrameNumber width j).1) : i = j := by
  let readBack (text : Text) : Text := ((text.reverse.dropWhile (· = ' ')).takeWhile Char.isDigit).reverse
  have digits (front : Text) (n : Nat) :
      readBack (front ++ (writeFrameNumber width n).1) = Nat.toDigits 10 n := by
    have isDigit : ∀ c ∈ (Nat.toDigits 10 n).reverse, c.isDigit := fun c member =>
      Nat.isDigit_of_mem_toDigits (by decide) (by decide) (List.mem_reverse.mp member)
    have kept : ((Nat.toDigits 10 n).reverse ++ '#' :: front.reverse).dropWhile (· = ' ') =
        (Nat.toDigits 10 n).reverse ++ '#' :: front.reverse := by
      cases reversed : (Nat.toDigits 10 n).reverse with
      | nil => rfl
      | cons c rest =>
        have notSpace : c ≠ ' ' := fun same => by simpa [same] using isDigit c (reversed ▸ List.mem_cons_self)
        simp [notSpace]
    have taken : ((Nat.toDigits 10 n).reverse ++ '#' :: front.reverse).takeWhile Char.isDigit =
        (Nat.toDigits 10 n).reverse := by
      rw [List.takeWhile_append_of_pos isDigit]
      simp
    simp [readBack, writeFrameNumber, alignLeft, kept, taken]
  have equal : Nat.toDigits 10 i = Nat.toDigits 10 j := by rw [← digits front i, same, digits front' j]
  rw [← Nat.ofDigitChars_ten_toDigits (n := i), equal, Nat.ofDigitChars_ten_toDigits]

theorem toDigits_ends (n : Nat) : ∃ before last, Nat.toDigits 16 n = before ++ [last] ∧ last ≠ ' ' := by
  rw [Nat.toDigits_eq_if (by decide)]
  split
  · exact ⟨[], _, rfl, by simp⟩
  · exact ⟨_, _, rfl, by simp⟩

theorem printAddress_ends (useColor : Bool) (frame : CtraceStacktraceFrame) :
    ∃ before last, printAddress useColor frame = before ++ [last] ∧ last ≠ ' ' := by
  unfold printAddress
  split
  · exact ⟨List.replicate 9 ' ' ++ "(inlined".toList, ')', rfl, by decide⟩
  · cases useColor with
    | true =>
      refine ⟨ColorSetting.blue true ++ "0x".toList
        ++ alignRight addressWidth '0' (Nat.toDigits 16 frame.rawAddress.toNat) ++ "\x1b[0".toList, 'm', ?_, by decide⟩
      simp [ColorSetting.reset, ColorSetting.escape]
    | false =>
      obtain ⟨before, last, digits, notSpace⟩ := toDigits_ends frame.rawAddress.toNat
      refine ⟨"0x".toList ++ List.replicate (16 - (before ++ [last]).length) '0' ++ before, last, ?_, notSpace⟩
      simp [ColorSetting.blue, ColorSetting.reset, ColorSetting.escape, alignRight, addressWidth, digits]

theorem printAddress_ne_padded (front padded : Text) :
    front ++ printAddress useColor frame ≠ padded ++ [' '] := by
  obtain ⟨before, last, ends, notSpace⟩ := printAddress_ends useColor frame
  intro equal
  have lasts := congrArg List.getLast? equal
  rw [ends, ← List.append_assoc, List.getLast?_concat, List.getLast?_concat] at lasts
  exact notSpace (Option.some.inj lasts)

/-- Texts that end in the lines of one frame are equal only if the lines are. -/
theorem line_inj {renderers : Renderers} {front front' : Text} {width i j : Nat}
    (same : front ++ printFrame useColor width i frame = front' ++ stringLine renderers useColor width j frame) :
    frame.isInline = 0 ∧ ¬ IsBare frame ∧ i = j := by
  rw [stringLine_eq, printFrame_eq] at same
  by_cases bare : IsBare frame
  · have nothing : printBody useColor frame = [] := by
      simp [printBody, printSymbol, printLocation, bare.1, bare.2]
    rw [if_pos bare, nothing] at same
    simp only [List.nil_append, ← List.append_assoc, List.append_cancel_right_eq] at same
    exact absurd same (printAddress_ne_padded _ _)
  · rw [if_neg bare] at same
    simp only [← List.append_assoc, List.append_cancel_right_eq] at same
    by_cases inlined : frame.isInline = 0
    · rw [stringAddress_of_notInline useColor frame inlined, List.append_cancel_right_eq] at same
      exact ⟨inlined, bare, number_inj same⟩
    · have padded : stringAddress useColor frame = "(inlined)".toList ++ List.replicate 8 ' ' ++ [' '] := by
        simp [stringAddress, writeAddress, convertStacktraceFrame, inlined]
        rfl
      rw [padded] at same
      simp only [← List.append_assoc] at same
      exact absurd same (printAddress_ne_padded _ _)

end Suffixes

section Traces

variable (renderers : Renderers) (useColor : Bool) (width : Nat)

def printLines (frames : List CtraceStacktraceFrame) : Text :=
  frames.zipIdx.flatMap fun entry => printFrame useColor width entry.2 entry.1

def stringLines (frames : List CtraceStacktraceFrame) : Text :=
  frames.zipIdx.flatMap fun entry => stringLine renderers useColor width entry.2 entry.1

theorem printLines_concat (frames : List CtraceStacktraceFrame) (last : CtraceStacktraceFrame) :
    printLines useColor width (frames ++ [last]) =
      printLines useColor width frames ++ printFrame useColor width frames.length last := by
  simp [printLines, List.zipIdx_append]

theorem stringLines_concat (frames : List CtraceStacktraceFrame) (last : CtraceStacktraceFrame) :
    stringLines renderers useColor width (frames ++ [last]) =
      stringLines renderers useColor width frames ++ stringLine renderers useColor width frames.length last := by
  simp [stringLines, List.zipIdx_append]

/-- Frames with the same numbers are written alike only if each one is; the last is compared first. -/
theorem printLines_eq_iff (frames : List CtraceStacktraceFrame) :
    printLines useColor width frames = stringLines renderers useColor width frames ↔
      ∀ frame ∈ frames, frame.isInline = 0 ∧ ¬ IsBare frame := by
  induction frames using List.reverseRecOn with
  | nil => simp [printLines, stringLines]
  | append_singleton frames last ih =>
    rw [printLines_concat, stringLines_concat]
    constructor
    · intro same
      obtain ⟨notInline, notBare, -⟩ := line_inj same
      rw [printFrame_eq_stringLine renderers useColor width _ last notInline notBare, List.append_cancel_right_eq,
        ih] at same
      simpa [or_imp, forall_and, notInline, notBare] using same
    · intro alike
      obtain ⟨notInline, notBare⟩ := alike last (by simp)
      rw [printFrame_eq_stringLine renderers useColor width _ last notInline notBare,
        ih.mpr fun frame member => alike frame (List.mem_append_left _ member)]

theorem printLines_ne_drop (frames : List CtraceStacktraceFrame) (start : Nat) (skips : 0 < start)
    (some : frames.drop start ≠ []) :
    printLines useColor width frames ≠ stringLines renderers useColor width (frames.drop start) := by
  have shorter : start < frames.length := by simpa using some
  cases frames using List.reverseRecOn with
  | nil => cases shorter
  | append_singleton earlier last =>
    rw [List.length_append, List.length_singleton] at shorter
    rw [List.drop_append_of_le_length (by omega), printLines_concat, stringLines_concat]
    intro same
    have number := (line_inj same).2.2
    rw [List.length_drop] at number
    omega

theorem writeFrames_eq_stringLines (size i counter : Nat) (frames : List CtraceStacktraceFrame)
    (sized : i + frames.length = size) (nonempty : frames ≠ []) :
    writeFrames renderers {} useColor size width i counter (cppConvert frames) ++ "\n".toList =
      (frames.zipIdx counter).flatMap fun entry => stringLine renderers useColor width entry.2 entry.1 := by
  induction frames generalizing i counter with
  | nil => exact absurd rfl nonempty
  | cons frame rest ih =>
    have shown : isHidden {} i (convertStacktraceFrame frame) = false := rfl
    rw [List.length_cons] at sized
    rw [cppConvert, List.map_cons, writeFrames, shown, if_neg Bool.false_ne_true, List.zipIdx_cons, List.flatMap_cons]
    by_cases ended : rest = []
    · subst ended
      have last : ¬ i + 1 ≠ size := by simpa using sized
      rw [if_neg last]
      simp [writeFrames, stringLine]
      rfl
    · have more : i + 1 ≠ size := fun same => ended (List.eq_nil_of_length_eq_zero (by omega))
      have tail := ih (i + 1) (counter + 1) (by omega) ended
      rw [if_pos more, List.append_assoc, ← cppConvert, tail]
      rfl

theorem cppConvert_drop (trace : List CtraceStacktraceFrame) (start : Nat) :
    (cppConvert trace).drop start = cppConvert (trace.drop start) := List.map_drop.symm

theorem toString_eq (trace : List CtraceStacktraceFrame) (nonempty : trace ≠ []) :
    ctraceStacktraceToString renderers trace useColor ++ "\n".toList =
      "Stack trace (most recent call first):\n".toList ++
        if trace.drop (getTraceStart {} (cppConvert trace)) = [] then "\n".toList
        else
          stringLines renderers useColor (frameNumberWidth (cppConvert trace))
            (trace.drop (getTraceStart {} (cppConvert trace))) := by
  have colored : shouldDoColor {} (some useColor) = useColor := rfl
  have header : writeHeader {} = "Stack trace (most recent call first):\n".toList := rfl
  have some : (cppConvert trace).isEmpty = false := by simpa [cppConvert] using nonempty
  rw [ctraceStacktraceToString, format, Option.getD_some, colored, writeTrace, header, some,
    if_neg Bool.false_ne_true, List.append_assoc, cppConvert_drop]
  refine congrArg _ ?_
  split
  next done =>
    rw [done]
    rfl
  next more =>
    have within := Nat.lt_of_not_le fun all => more (List.drop_eq_nil_of_le all)
    have size : (cppConvert trace).length = trace.length := List.length_map _
    refine writeFrames_eq_stringLines renderers useColor _ _ _ 0 _ ?_ more
    rw [List.length_drop, size]
    omega

theorem getTraceStart_eq_zero_iff (trace : List CtraceStacktraceFrame) :
    getTraceStart {} (cppConvert trace) = 0 ↔
      ∀ frame ∈ trace, isExceptionMachinery (convertStacktraceFrame frame) = false := by
  unfold getTraceStart
  rw [if_pos rfl]
  cases found : (cppConvert trace).findIdx? isExceptionMachinery with
  | none => simpa [cppConvert] using found
  | some index =>
    obtain ⟨within, machinery, -⟩ := List.findIdx?_eq_some_iff_getElem.mp found
    have member := List.getElem_mem within
    obtain ⟨frame, listed, same⟩ := List.mem_map.mp member
    simp only [Nat.succ_ne_zero, false_iff]
    intro none
    rw [← same, none frame listed] at machinery
    cases machinery

end Traces

/-- The width of the frame numbers, from the count less one in either type. -/
theorem frameNumberWidth_eq (trace : List CtraceStacktraceFrame) (nonempty : trace ≠ []) :
    nDigits (UInt32.ofNat (trace.length - 1)).toNat = frameNumberWidth (cppConvert trace) := by
  have positive : 1 ≤ trace.length := List.length_pos_iff.mpr nonempty
  rw [frameNumberWidth, cppConvert, List.length_map, UInt32.ofNat_sub positive]
  rfl

/-- The printers agree exactly on the traces whose frames are all written alike. -/
theorem ctracePrintStacktrace_eq_iff (renderers : Renderers) (trace : List CtraceStacktraceFrame) (useColor : Bool)
    (nonempty : trace ≠ []) :
    ctracePrintStacktrace useColor trace = ctraceStacktraceToString renderers trace useColor ++ "\n".toList ↔
      ∀ frame ∈ trace, PrintedAlike frame := by
  have printed : ctracePrintStacktrace useColor trace =
      "Stack trace (most recent call first):\n".toList ++
        printLines useColor (frameNumberWidth (cppConvert trace)) trace := by
    have some : trace.isEmpty = false := by simpa using nonempty
    unfold ctracePrintStacktrace printLines
    rw [← frameNumberWidth_eq trace nonempty, some]
    rfl
  rw [toString_eq renderers useColor trace nonempty, printed, List.append_cancel_left_eq]
  have alike : (∀ frame ∈ trace, PrintedAlike frame) ↔ getTraceStart {} (cppConvert trace) = 0 ∧
      ∀ frame ∈ trace, frame.isInline = 0 ∧ ¬ IsBare frame := by
    rw [getTraceStart_eq_zero_iff, ← forall₂_and]
    exact forall₂_congr fun frame _ => ⟨fun ⟨a, b, c⟩ => ⟨c, a, b⟩, fun ⟨c, a, b⟩ => ⟨a, b, c⟩⟩
  rw [alike]
  rcases Nat.eq_zero_or_pos (getTraceStart {} (cppConvert trace)) with zero | skips
  · rw [zero, List.drop_zero, if_neg nonempty, printLines_eq_iff]
    exact (and_iff_right rfl).symm
  · refine iff_of_false ?_ fun both => Nat.ne_of_gt skips both.1
    split
    next done =>
      obtain ⟨frame, rest, rfl⟩ := List.exists_cons_of_ne_nil nonempty
      intro same
      simp [printLines, printFrame] at same
    next more => exact printLines_ne_drop renderers useColor _ trace _ skips more

def namedFrame (symbol : String) (isInline : Int8) : CtraceStacktraceFrame :=
  ⟨0, 0, invalidPos, invalidPos, [], symbol.toList, isInline⟩

theorem ctracePrintStacktrace_eq_iff_at_main :
    (∀ frame ∈ [namedFrame "main" 0], PrintedAlike frame) ∧
      ctracePrintStacktrace false [namedFrame "main" 0] =
        ctraceStacktraceToString plainRenderers [namedFrame "main" 0] false ++ "\n".toList := by
  have alike : ∀ frame ∈ [namedFrame "main" 0], PrintedAlike frame := by
    intro frame member
    rw [List.mem_singleton.mp member]
    exact ⟨rfl, by decide, by decide⟩
  exact ⟨alike, (ctracePrintStacktrace_eq_iff plainRenderers _ false (by decide)).mpr alike⟩

/-- An inlined frame is padded on different sides. -/
theorem ctracePrintStacktrace_eq_fails :
    ctracePrintStacktrace false [namedFrame "f" 1] =
        "Stack trace (most recent call first):\n#0          (inlined) in f\n".toList ∧
      ctraceStacktraceToString plainRenderers [namedFrame "f" 1] false =
        "Stack trace (most recent call first):\n#0 (inlined)          in f".toList := by
  have width : nDigits (UInt32.ofNat ([namedFrame "f" 1].length - 1)).toNat = 1 := by simp [nDigits]
  have converted := frameNumberWidth_eq [namedFrame "f" 1] (by decide)
  rw [width] at converted
  unfold ctracePrintStacktrace ctraceStacktraceToString format writeTrace
  rw [width]
  change _ ∧ _ ++ writeFrames plainRenderers {} _ 1 (frameNumberWidth (cppConvert [namedFrame "f" 1])) 0 0 _ = _
  rw [← converted]
  decide +kernel

end Cpptrace.CTrace
