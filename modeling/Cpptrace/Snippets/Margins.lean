import Cpptrace.Snippets.Window
import Cpptrace.Microfmt.Widths

/-! The columns of a snippet.

The target line, the lines around it and the caret are each given a margin of
their own. The three agree as long as the number of the target line, with the
mark in front of it, fits the width that the margin has. The place of the caret
is a width, and widths are honoured as far as an `int` can hold them.
-/

set_option autoImplicit false

namespace Cpptrace.Snippets

open Formatting

section Lines

theorem newline_notMem_linesFrom (current rest : Text) (noFeed : '\n' ∉ current) :
    ∀ line ∈ linesFrom current rest, '\n' ∉ line := by
  induction rest generalizing current with
  | nil =>
    intro line member
    obtain rfl := List.mem_singleton.mp member
    exact noFeed
  | cons c rest ih =>
    rw [linesFrom]
    split
    next =>
      intro line member
      rcases List.mem_cons.mp member with rfl | later
      · unfold stripReturn
        split
        · exact fun within => noFeed (List.dropLast_subset current within)
        · exact noFeed
      · exact ih [] List.not_mem_nil line later
    next other =>
      have fresh : '\n' ∉ current ++ [c] := by simp [noFeed, Ne.symm other]
      exact ih (current ++ [c]) fresh

theorem newline_notMem_lineText (contents : Text) (line : Nat) : '\n' ∉ lineText contents line := by
  rw [lineText, List.getD_eq_getElem?_getD]
  cases found : (fileLines contents)[line - 1]? with
  | none => exact List.not_mem_nil
  | some text =>
    exact newline_notMem_linesFrom [] contents List.not_mem_nil text (List.mem_of_getElem? found)

theorem length_linesFrom (current rest : Text) : (linesFrom current rest).length ≤ rest.length + 1 := by
  induction rest generalizing current with
  | nil => exact Nat.le_refl 1
  | cons c rest ih =>
    rw [linesFrom]
    split
    · exact Nat.succ_le_succ (ih [])
    · exact Nat.le_succ_of_le (ih _)

/-- The line numbers of a file that is loaded have at most eight digits. -/
theorem lineCount_lt (file : SourceFile) : lineCount file.contents < 100000000 := by
  have counted : lineCount file.contents ≤ file.contents.length + 1 := length_linesFrom [] file.contents
  have small := file.small
  unfold maxSize at small
  omega

end Lines

section Margins

variable (targetLine : Nat)

theorem newline_notMem_alignRight (width : Nat) (value : Text) (noFeed : '\n' ∉ value) :
    '\n' ∉ alignRight width ' ' value := by
  simp [alignRight, noFeed]

theorem newline_notMem_toDigits (line : Nat) : '\n' ∉ Nat.toDigits 10 line := fun member => by
  have digit := Nat.isDigit_of_mem_toDigits (by decide) (by decide) member
  exact absurd digit (by decide)

theorem length_writeLineNumber_context {line : Nat} (other : line ≠ targetLine) (small : line < 100000000) :
    (writeLineNumber targetLine false line).length = marginWidth + 2 := by
  have digits : (Nat.toDigits 10 line).length ≤ 8 :=
      (Nat.length_toDigits_le_iff (by decide) (by decide)).mpr (small.trans_eq (by decide))
  rw [writeLineNumber, if_neg other, List.length_append, length_alignRight]
  show max 8 _ + 2 = 10
  omega

/-- The margin of the target line grows with a number of more than five digits. -/
theorem length_writeLineNumber_target :
    (writeLineNumber targetLine false targetLine).length =
      max marginWidth ((Nat.toDigits 10 targetLine).length + 3) + 2 := by
  simp only [writeLineNumber, if_true, List.length_append, length_alignRight, ColorSetting.yellow, ColorSetting.reset,
    ColorSetting.escape, Bool.false_eq_true, if_false, List.length_nil]
  show 0 + max (8 - _) 0 + 3 + _ + 2 + 0 = max 8 _ + 2
  omega

theorem length_writeLineNumber_target_iff :
    (writeLineNumber targetLine false targetLine).length = marginWidth + 2 ↔ targetLine < 100000 := by
  have digits := Nat.length_toDigits_le_iff (n := targetLine) (k := 5) (show 1 < 10 by decide) (by decide)
  rw [length_writeLineNumber_target, show 100000 = 10 ^ 5 from rfl, ← digits]
  show max 8 _ + 2 = 8 + 2 ↔ _
  omega

theorem newline_notMem_writeLineNumber (line : Nat) : '\n' ∉ writeLineNumber targetLine false line := by
  have digits := newline_notMem_toDigits line
  simp only [writeLineNumber]
  split
  · simp [newline_notMem_alignRight, digits, ColorSetting.yellow, ColorSetting.reset, ColorSetting.escape]
  · simp [newline_notMem_alignRight, digits]

def caretLine (blanks : Nat) : Text := List.replicate blanks ' ' ++ ['^']

/-- The blanks in front of a caret are a width, and go the way of one. -/
theorem writeCarrot_blanks (color : Bool) (column : Nat) (size : column < 0x100000000) :
    writeCarrot color column =
      '\n' :: List.replicate (Microfmt.narrowed (marginWidth + 2 + column - 1 : Nat)) ' ' ++
        (ColorSetting.yellow color ++ "^".toList ++ ColorSetting.reset color) := by
  have value : (UInt64.ofNat (marginWidth + 2 + column - 1)).toNat = marginWidth + 2 + column - 1 :=
    UInt64.toNat_ofNat_of_lt (by unfold UInt64.size marginWidth; omega)
  have shape : '\n' :: "\x7b>\x7b\x7d\x7d".toList = '\n' :: Microfmt.alignedField .right := rfl
  rw [writeCarrot, shape, Microfmt.format_newline_alignedField,
    Microfmt.unwrapInt_narrows (Microfmt.integer_uint64 value)]
  simp only [Microfmt.padded, List.append_nil, List.length_nil, Nat.sub_zero, List.append_assoc]

theorem writeCarrot_eq (column : Nat) (positive : 1 ≤ column) (small : column < 0x80000000 - 16) :
    writeCarrot false column = '\n' :: caretLine (marginWidth + 2 + (column - 1)) := by
  have width : marginWidth + 2 + column - 1 = marginWidth + 2 + (column - 1) := by omega
  have kept : Microfmt.narrowed (marginWidth + 2 + (column - 1) : Nat) = marginWidth + 2 + (column - 1) :=
    (Microfmt.narrowed_eq_iff (by unfold sizeModulus marginWidth; omega)).mpr (.inl (by unfold marginWidth; omega))
  rw [writeCarrot_blanks false column (by omega), width, kept]
  simp [caretLine, ColorSetting.yellow, ColorSetting.reset, ColorSetting.escape]

end Margins

section Columns

variable (contents : Text) (request : Request) (column : Nat)

/-- The output lines for a line of the file: the line behind some margin and, under the target, the
caret. -/
def outputLines (margin : Nat → Text) (blanks line : Nat) : List Text :=
  (margin line ++ lineText contents line) :: if line = request.targetLine then [caretLine blanks] else []

/-- The source lines of the snippet start at one column, and the caret stands under the character of
the target line that the column says. -/
def ColumnsLineUp : Prop :=
  ∃ context text width margin,
    getLines (.new (some contents)) request.targetLine request.contextSize = some (some context) ∧
    getSnippet (.new (some contents)) request.targetLine ⟨.ofNat column⟩ request.contextSize false = some text ∧
    (∀ line, context.firstLine ≤ line → line ≤ context.lastLine → (margin line).length = width) ∧
    text.splitOn '\n' = (lineNumbers context.firstLine context.lastLine).flatMap
      (outputLines contents request margin (width + (column - 1)))

variable {contents request column}

theorem lineNumbers_cons {first last : Nat} (within : first ≤ last) :
    lineNumbers first last = first :: lineNumbers (first + 1) last := by
  have size : last + 1 - first = last + 1 - (first + 1) + 1 := by omega
  rw [lineNumbers, size, List.range'_succ]
  rfl

theorem lineNumbers_self (last : Nat) : lineNumbers last last = [last] := by
  rw [lineNumbers, Nat.add_sub_cancel_left]
  rfl

section Shown

variable (contents request) (shown : Nullable) (hasColumn : shown.hasValue = true) (positive : 1 ≤ shown.rawValue.toNat)
  (below : shown.rawValue.toNat < 0x80000000 - 16)

theorem newline_notMem_outputLines (blanks line : Nat) :
    ∀ output ∈ outputLines contents request (writeLineNumber request.targetLine false) blanks line, '\n' ∉ output := by
  have own : '\n' ∉ writeLineNumber request.targetLine false line ++ lineText contents line := by
    simp [newline_notMem_writeLineNumber, newline_notMem_lineText]
  intro output member
  rcases List.mem_cons.mp member with rfl | caret
  · exact own
  · split at caret
    · obtain rfl := List.mem_singleton.mp caret
      simp [caretLine]
    · cases caret

include hasColumn positive below

/-- What is shown for a line has its output lines, with a newline between them. -/
theorem shownLine_eq (line last : Nat) :
    request.shownLine contents shown false last line =
      ['\n'].intercalate (outputLines contents request (writeLineNumber request.targetLine false)
        (marginWidth + 2 + (shown.rawValue.toNat - 1)) line) ++ if line ≠ last then ['\n'] else [] := by
  rw [Request.shownLine, outputLines, hasColumn, writeCarrot_eq _ positive below]
  by_cases target : line = request.targetLine
  · simp [target]
  · simp [target]

theorem splitOn_shownLines {first last : Nat} (within : first ≤ last) :
    (((lineNumbers first last).map (request.shownLine contents shown false last)).flatten).splitOn '\n' =
      (lineNumbers first last).flatMap (outputLines contents request (writeLineNumber request.targetLine false)
        (marginWidth + 2 + (shown.rawValue.toNat - 1))) := by
  have plain := newline_notMem_outputLines contents request (marginWidth + 2 + (shown.rawValue.toNat - 1))
  generalize turns : last - first = count
  induction count generalizing first with
  | zero =>
    obtain rfl : first = last := by omega
    rw [lineNumbers_self, List.map_singleton, List.flatten_singleton, List.flatMap_singleton,
      shownLine_eq contents request shown hasColumn positive below, if_neg (by simp), List.append_nil,
      List.splitOn_intercalate '\n' (plain first) (List.cons_ne_nil _ _)]
  | succ count ih =>
    have ordered : first + 1 ≤ last := by omega
    have later := ih ordered (by omega)
    rw [lineNumbers_cons within, List.map_cons, List.flatten_cons, List.flatMap_cons, ← later,
      shownLine_eq contents request shown hasColumn positive below, if_pos (by omega), List.append_assoc,
      List.singleton_append, List.splitOn_append_cons_self,
      List.splitOn_intercalate '\n' (plain first) (List.cons_ne_nil _ _)]

end Shown

/-- Two ways to write each member of a list agree if the wholes do and the parts have one length. -/
theorem flatMap_inj {α β : Type} {values : List α} {first second : α → List β}
    (sized : ∀ value, (first value).length = (second value).length)
    (same : values.flatMap first = values.flatMap second) : ∀ value ∈ values, first value = second value := by
  induction values with
  | nil => nofun
  | cons head rest ih =>
    obtain ⟨here, later⟩ := List.append_inj same (sized head)
    exact List.forall_mem_cons.mpr ⟨here, ih later⟩

theorem length_outputLines (margin margin' : Nat → Text) (blanks blanks' line : Nat) :
    (outputLines contents request margin blanks line).length =
      (outputLines contents request margin' blanks' line).length := by
  unfold outputLines
  split <;> rfl

end Columns

/-- A column below 2^31 is a value of the type, and not the null one. -/
theorem ofNat_hasValue {column : Nat} (small : column < 0x80000000 - 16) :
    (UInt32.ofNat column).toNat = column ∧ (Nullable.mk (.ofNat column)).hasValue = true := by
  have size : (UInt32.ofNat column).toNat = column := UInt32.toNat_ofNat_of_lt (by unfold UInt32.size; omega)
  refine ⟨size, ?_⟩
  simp only [Nullable.hasValue, Nullable.nullValue, bne_iff_ne]
  intro null
  have value := congrArg UInt32.toNat null
  rw [size] at value
  have : (0xFFFFFFFF : UInt32).toNat = 0xFFFFFFFF := rfl
  omega

section Fits

variable (file : SourceFile) (request : Request) (inFile : request.targetLine ≤ lineCount file.contents)
  (column : Nat) (positive : 1 ≤ column) (small : column < 0x80000000 - 16)
include inFile positive small

/-- What a snippet of a line in the file is, in terms of the margins as they are written. -/
theorem snippet_lines :
    ∃ context text,
      getLines (.new (some file.contents)) request.targetLine request.contextSize = some (some context) ∧
      getSnippet (.new (some file.contents)) request.targetLine ⟨.ofNat column⟩ request.contextSize false = some text ∧
      context.firstLine ≤ request.targetLine ∧ request.targetLine ≤ context.lastLine ∧
      context.lastLine ≤ lineCount file.contents ∧
      text.splitOn '\n' = (lineNumbers context.firstLine context.lastLine).flatMap
        (outputLines file.contents request (writeLineNumber request.targetLine false)
          (marginWidth + 2 + (column - 1))) := by
  obtain ⟨size, hasColumn⟩ := ofNat_hasValue small
  obtain ⟨first, last, front, back, startFirst, firstTarget, targetLast, lastEnd, -⟩ := request.exists_trimmed inFile
  have context : getLines (.new (some file.contents)) request.targetLine request.contextSize =
      some (some ⟨request.windowFirst, first, last, request.collected file.contents⟩) := by
    rw [Request.new_small file, Request.getLines_eq, front, back]
    rfl
  have written := Request.getSnippet_of_trimmed ⟨.ofNat column⟩ false startFirst lastEnd front back
  rw [← Request.new_small file] at written
  have split := splitOn_shownLines file.contents request ⟨.ofNat column⟩ hasColumn (by rwa [size]) (by rwa [size])
    (firstTarget.trans targetLast)
  simp only [size] at split
  exact ⟨_, _, context, written, firstTarget, targetLast, lastEnd.trans (Nat.min_le_right _ _), split⟩

theorem targetLine_lt_of_columnsLineUp (linesUp : ColumnsLineUp file.contents request column) :
    request.targetLine < 100000 := by
  obtain ⟨context, text, shown, written, firstTarget, targetLast, -, split⟩ :=
    snippet_lines file request inFile column positive small
  obtain ⟨context', text', width, margin, shown', written', sized, lines⟩ := linesUp
  obtain rfl := Option.some.inj (Option.some.inj (shown.symm.trans shown'))
  obtain rfl := Option.some.inj (written.symm.trans written')
  rw [split] at lines
  have target : request.targetLine ∈ lineNumbers context.firstLine context.lastLine :=
    (mem_lineNumbers ..).mpr ⟨firstTarget, targetLast⟩
  have same := flatMap_inj (fun line => length_outputLines ..) lines request.targetLine target
  simp only [outputLines, if_true, List.cons.injEq, List.append_cancel_right_eq, and_true] at same
  -- the caret tells the margin, which the target line then has to keep
  have blanks := congrArg List.length same.2
  simp only [caretLine, List.length_append, List.length_replicate, List.length_singleton] at blanks
  have kept := sized request.targetLine firstTarget targetLast
  rw [← same.1] at kept
  exact (length_writeLineNumber_target_iff request.targetLine).mp (by omega)

/-- The columns of a snippet line up if and only if its target line has at most five digits. -/
theorem columnsLineUp_iff : ColumnsLineUp file.contents request column ↔ request.targetLine < 100000 := by
  refine ⟨targetLine_lt_of_columnsLineUp file request inFile column positive small, fun short => ?_⟩
  obtain ⟨context, text, shown, written, -, -, lastEnd, split⟩ :=
    snippet_lines file request inFile column positive small
  refine ⟨context, text, marginWidth + 2, writeLineNumber request.targetLine false, shown, written, ?_, split⟩
  intro line above below
  by_cases same : line = request.targetLine
  · rw [same]
    exact (length_writeLineNumber_target_iff request.targetLine).mpr short
  · have counted := lineCount_lt file
    exact length_writeLineNumber_context request.targetLine same (by omega)

end Fits

def blankFile : SourceFile := ⟨List.replicate 9 '\n', by decide⟩

theorem columnsLineUp_iff_at_blank :
    ColumnsLineUp blankFile.contents ⟨3, 1, by decide, by decide⟩ 7 ↔ 3 < 100000 :=
  columnsLineUp_iff blankFile ⟨3, 1, by decide, by decide⟩ (by decide) 7 (by decide) (by decide)

theorem lineCount_newlines (count : Nat) : lineCount (List.replicate count '\n') = count + 1 := by
  induction count with
  | zero => rfl
  | succ count ih => exact congrArg (· + 1) ih

def longFile : SourceFile where
  contents := List.replicate 99999 '\n'
  small := by
    rw [List.length_replicate]
    decide

/-- The source text of line 100000 starts a column behind that of line 99999. -/
theorem columnsLineUp_fails :
    (writeLineNumber 100000 false 100000).length = 11 ∧ (writeLineNumber 100000 false 99999).length = 10 ∧
      ¬ ColumnsLineUp longFile.contents ⟨100000, 1, by decide, by decide⟩ 1 := by
  have inFile : 100000 ≤ lineCount longFile.contents := by
    rw [longFile, lineCount_newlines]
  refine ⟨by decide, by decide, fun linesUp => ?_⟩
  exact absurd (targetLine_lt_of_columnsLineUp longFile _ inFile 1 (by decide) (by decide) linesUp) (Nat.lt_irrefl _)

section Widths

open Microfmt

def caretAfter (color : Bool) (blanks : Nat) : Text :=
  '\n' :: List.replicate blanks ' ' ++ (ColorSetting.yellow color ++ "^".toList ++ ColorSetting.reset color)

theorem caretAfter_injective {color : Bool} {blanks others : Nat}
    (same : caretAfter color blanks = caretAfter color others) : blanks = others := by
  have sizes := congrArg List.length same
  simp only [caretAfter, List.length_append, List.length_cons, List.length_replicate] at sizes
  omega

/-- The caret is under its column as long as the blanks in front of it can be counted by an `int`. -/
theorem writeCarrot_iff (color : Bool) (column : UInt32) (positive : 1 ≤ column.toNat) :
    writeCarrot color column.toNat = caretAfter color (marginWidth + 1 + column.toNat) ↔
      marginWidth + 1 + column.toNat < 0x80000000 := by
  have size : column.toNat < 0x100000000 := column.toNat_lt
  have width : marginWidth + 2 + column.toNat - 1 = marginWidth + 1 + column.toNat := by omega
  have written : writeCarrot color column.toNat =
      caretAfter color (narrowed (marginWidth + 1 + column.toNat : Nat)) := by
    rw [writeCarrot_blanks color column.toNat size, width, caretAfter]
  have bounded : marginWidth + 1 + column.toNat < sizeModulus - 0x80000000 := by
    unfold marginWidth sizeModulus
    omega
  have kept : narrowed (marginWidth + 1 + column.toNat : Nat) = marginWidth + 1 + column.toNat ↔
      marginWidth + 1 + column.toNat < 0x80000000 := by
    rw [narrowed_eq_iff (by omega)]
    exact or_iff_left (Nat.not_le.mpr bounded)
  rw [written, ← kept]
  exact ⟨caretAfter_injective, congrArg (caretAfter color)⟩

/-- Fields honour a width that an `int` can hold, or that is as long as its value anyway; decimal
widths and carets have to fit an `int`. -/
theorem widths_honoured_iff (align : Microfmt.Alignment) (color : Bool) :
    (∀ (arg : FormatValue) (width : Nat) (value : Text), arg.integer = some (width : Int) →
      ((format (alignedField align) [arg, .string value]).text.length = max width value.length ↔
        WidthFits width value.length)) ∧
    (∀ digits rest text options args, digits ≠ [] → (∀ c ∈ digits, c.isDigit) → rest.head?.any Char.isDigit = false →
      (parseWidth options ⟨digits ++ rest, args, ⟨text, false⟩⟩ =
          (.ok { options with width := Nat.ofDigitChars 10 digits 0 }, ⟨rest, args, ⟨text, false⟩⟩) ↔
        Nat.ofDigitChars 10 digits 0 < 0x80000000)) ∧
    ∀ column : UInt32, 1 ≤ column.toNat →
      (writeCarrot color column.toNat = caretAfter color (marginWidth + 1 + column.toNat) ↔
        marginWidth + 1 + column.toNat < 0x80000000) :=
  ⟨fun _ _ value holds => length_alignedField_iff align holds value,
    fun digits rest text options args nonempty decimal ends =>
      parseWidth_digits_iff digits rest text options args nonempty decimal ends,
    fun column positive => writeCarrot_iff color column positive⟩

theorem widths_honoured_iff_at_twelve :
    (format "\x7b>\x7b\x7d\x7d".toList [.int64 12, .string "line".toList]).text.length = 12 ∧
      parseWidth {} ⟨"12\x7d".toList, [], ⟨[], false⟩⟩ = (.ok { width := 12 }, ⟨['}'], [], ⟨[], false⟩⟩) ∧
      writeCarrot false 12 = caretAfter false 21 :=
  ⟨((widths_honoured_iff .right false).1 (.int64 12) 12 "line".toList rfl).mpr (.inl (by decide)),
    ((widths_honoured_iff .right false).2.1 "12".toList ['}'] [] {} [] (by decide) (by decide) rfl).mpr (by decide),
    ((widths_honoured_iff .right false).2.2 12 (by decide)).mpr (by decide)⟩

/-- A width of 2^32 pads nothing, 2^31 is not read without an overflow, and a caret for the column
2^32 - 8 stands behind one blank. -/
theorem widths_not_honoured :
    (format (alignedField .left) [.uint64 0x100000000, .string []]).text.length ≠ max 0x100000000 0 ∧
      parseWidth {} ⟨"2147483648\x7d".toList, [], ⟨[], false⟩⟩ ≠
        (.ok { width := 2147483648 }, ⟨['}'], [], ⟨[], false⟩⟩) ∧
      writeCarrot false (0xFFFFFFF8 : UInt32).toNat ≠ caretAfter false (marginWidth + 1 + 0xFFFFFFF8) := by
  refine ⟨fun same => ?_, fun same => ?_, fun same => ?_⟩
  · have holds : (FormatValue.uint64 0x100000000).integer = some ((0x100000000 : Nat) : Int) := rfl
    have fits := (length_alignedField_iff .left holds []).mp same
    exact absurd fits (by decide)
  · have fits := (parseWidth_digits_iff "2147483648".toList ['}'] [] {} [] (by decide) (by decide) rfl).mp same
    exact absurd fits (by decide)
  · exact absurd ((writeCarrot_iff false 0xFFFFFFF8 (by decide)).mp same) (by decide)

end Widths

end Cpptrace.Snippets
