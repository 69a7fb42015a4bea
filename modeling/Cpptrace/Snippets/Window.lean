import Cpptrace.Snippets.Snippet

/-! The window of lines that a snippet shows.

A line table is the list of the lines of a file. A target in the file is shown with the
lines around it; for a target beyond the end the lines that are left to show are trimmed
against a line that is not among them.
-/

set_option autoImplicit false

namespace Cpptrace.Snippets

open Formatting

section Lines

def stripReturn (line : Text) : Text := if line.getLast? = some '\r' then line.dropLast else line

def linesFrom (current : Text) : Text → List Text
  | [] => [current]
  | c :: rest => if c = '\n' then stripReturn current :: linesFrom [] rest else linesFrom (current ++ [c]) rest

/-- The lines of a file. Behind a last newline there is one more, an empty one. -/
def fileLines (contents : Text) : List Text := linesFrom [] contents

def lineText (contents : Text) (line : Nat) : Text := (fileLines contents).getD (line - 1) []

def substr (contents : Text) (range : LineRange) : Text := (contents.drop range.first).take (range.last - range.first)

theorem substr_middle (done line rest : Text) :
    substr (done ++ (line ++ rest)) ⟨done.length, done.length + line.length⟩ = line := by
  simp [substr]

/-- The end of a line that a newline ends, in the table and for the line itself. -/
theorem substr_ended (done current rest : Text) (fresh : done = [] ∨ done.getLast? = some '\n') :
    let contents := done ++ (current ++ rest)
    let cursor := done.length + current.length
    substr contents ⟨done.length, if 0 < cursor ∧ contents[cursor - 1]? = some '\r' then cursor - 1 else cursor⟩ =
      stripReturn current := by
  dsimp only
  rcases List.eq_nil_or_concat' current with rfl | ⟨front, last, rfl⟩
  · have noReturn : ¬ (0 < done.length ∧ (done ++ ([] ++ rest))[done.length - 1]? = some '\r') := by
      rintro ⟨positive, ends⟩
      rcases fresh with rfl | newline
      · exact absurd positive (Nat.lt_irrefl 0)
      · rw [List.getElem?_append_left (by omega), ← List.getLast?_eq_getElem?, newline] at ends
        exact absurd ends (by decide)
    rw [List.length_nil, Nat.add_zero, if_neg noReturn]
    simp [substr, stripReturn]
  · have atLast : (done ++ ((front ++ [last]) ++ rest))[done.length + (front ++ [last]).length - 1]? = some last := by
      rw [List.length_append, List.length_singleton, Nat.add_succ_sub_one]
      simp
    rw [atLast, stripReturn, List.getLast?_concat]
    by_cases isReturn : last = '\r'
    · have positive : 0 < done.length + (front ++ [last]).length := by
        rw [List.length_append, List.length_singleton]
        omega
      rw [if_pos ⟨positive, congrArg some isReturn⟩, if_pos (congrArg some isReturn), List.dropLast_concat]
      simp [substr]
    · rw [if_neg (by simp [isReturn]), if_neg (by simp [isReturn])]
      exact substr_middle done (front ++ [last]) rest

/-- The table has the lines; the induction is on what is left of the file. -/
theorem lineRanges_lines (done current rest : Text) (fresh : done = [] ∨ done.getLast? = some '\n') :
    (lineRanges (done ++ (current ++ rest)) done.length (done.length + current.length) rest).map
      (substr (done ++ (current ++ rest))) = linesFrom current rest := by
  induction rest generalizing done current with
  | nil =>
    have whole : (done ++ (current ++ [])).length = done.length + current.length := by simp
    rw [lineRanges, linesFrom, whole, List.map_singleton, substr_middle]
  | cons c rest ih =>
    rw [lineRanges, linesFrom]
    split
    -- the line ends, and the next one is collected from nothing
    next newline =>
      have next := ih (done ++ current ++ [c]) [] (.inr (by simp [newline]))
      have shape : done ++ current ++ [c] ++ ([] ++ rest) = done ++ (current ++ c :: rest) := by simp
      have position : (done ++ current ++ [c]).length = done.length + current.length + 1 := by simp; omega
      rw [shape, List.length_nil, Nat.add_zero, position] at next
      rw [List.map_cons, next, substr_ended done current (c :: rest) fresh]
    next =>
      have next := ih done (current ++ [c]) fresh
      have shape : done ++ (current ++ [c] ++ rest) = done ++ (current ++ c :: rest) := by simp
      rw [shape, List.length_append, List.length_singleton, ← Nat.add_assoc] at next
      exact next

theorem map_substr_lineRanges (contents : Text) :
    (lineRanges contents 0 0 contents).map (substr contents) = fileLines contents :=
  lineRanges_lines [] [] contents (.inl rfl)

end Lines

section Loaded

variable (contents : Text)

def loaded : SnippetManager := ⟨true, contents, buildLineTable contents⟩

def lineCount : Nat := (fileLines contents).length

theorem numLines_loaded : (loaded contents).numLines = lineCount contents + 1 := by
  rw [lineCount, ← map_substr_lineRanges, List.length_map]
  rfl

/-- The reads of the line table for the lines of a file are in it. -/
theorem getLine_loaded {line : Nat} (positive : 1 ≤ line) (within : line ≤ lineCount contents) :
    (loaded contents).getLine line = some (lineText contents line) := by
  have size : (loaded contents).lineTable.length = lineCount contents + 1 := numLines_loaded contents
  obtain ⟨index, rfl⟩ : ∃ index, line = index + 1 := ⟨line - 1, by omega⟩
  have found : (loaded contents).lineTable[index + 1]? = (lineRanges contents 0 0 contents)[index]? := rfl
  have inTable : index < (lineRanges contents 0 0 contents).length := by
    have := congrArg List.length (map_substr_lineRanges contents)
    rw [List.length_map] at this
    rw [this]
    exact within
  have read : ¬ (!(loaded contents).loadedContents || decide ((loaded contents).lineTable.length < index + 1)) =
      true := by
    rw [size]
    simp [loaded]
    omega
  rw [SnippetManager.getLine, if_neg read, found, List.getElem?_eq_getElem inTable]
  rw [lineText, ← map_substr_lineRanges]
  simp [inTable, substr, loaded]

theorem mem_lineNumbers (first last line : Nat) : line ∈ lineNumbers first last ↔ first ≤ line ∧ line ≤ last := by
  rw [lineNumbers, List.mem_range'_1]
  omega

theorem mapM_eq_some {α β : Type} {action : α → Option β} {value : α → β} {values : List α}
    (each : ∀ x ∈ values, action x = some (value x)) : values.mapM action = some (values.map value) := by
  induction values with
  | nil => rfl
  | cons x rest ih =>
    rw [List.mapM_cons, each x List.mem_cons_self, ih fun y member => each y (List.mem_cons_of_mem x member)]
    rfl

end Loaded

section Trimming

variable {text : Nat → Text} {first last : Nat}

theorem collected_getElem? (text : Nat → Text) {first last line : Nat} (above : first ≤ line) :
    ((lineNumbers first last).map text)[line - first]? = if line ≤ last then some (text line) else none := by
  rw [List.getElem?_map, lineNumbers]
  split
  next within =>
    rw [List.getElem?_range' (by omega), Option.map_some]
    congr 2
    omega
  next beyond =>
    rw [List.getElem?_eq_none (by rw [List.length_range']; omega)]
    rfl

/-- The loop in front leaves the vector if it passes all its lines before it gets to the target. -/
theorem trimFront_eq_none_iff {target line : Nat} (above : first ≤ line) :
    trimFront ((lineNumbers first last).map text) first target (target - line) line = none ↔
      max line (last + 1) < target ∧ ∀ i, line ≤ i → i ≤ last → text i = [] := by
  generalize turns : target - line = count
  induction count generalizing line with
  | zero =>
    have : ¬ max line (last + 1) < target := by omega
    simp [trimFront, this]
  | succ count ih =>
    rw [trimFront, if_pos (by omega), collected_getElem? text above]
    by_cases inside : line ≤ last
    · have furthest : max (line + 1) (last + 1) = max line (last + 1) := by omega
      rw [if_pos inside]
      show (if (text line).isEmpty then _ else _) = none ↔ _
      by_cases blank : text line = []
      · rw [if_pos (by rw [blank]; rfl), ih (by omega) (by omega), furthest]
        refine and_congr_right fun _ =>
          ⟨fun blanks i lower upper => ?_, fun blanks i lower upper => blanks i (by omega) upper⟩
        rcases Nat.eq_or_lt_of_le lower with rfl | later
        · exact blank
        · exact blanks i later upper
      · rw [if_neg (by simpa using blank)]
        refine ⟨nofun, fun ⟨_, blanks⟩ => absurd (blanks line (Nat.le_refl line) inside) blank⟩
    · -- beyond the last line the vector is read past its end
      rw [if_neg inside]
      refine ⟨fun _ => ⟨by omega, fun i lower upper => by omega⟩, fun _ => rfl⟩

theorem trimFront_some {target line found : Nat} (above : first ≤ line) (before : line ≤ target)
    (trimmed : trimFront ((lineNumbers first last).map text) first target (target - line) line = some found) :
    line ≤ found ∧ found ≤ target ∧ ∀ i, line ≤ i → i < found → text i = [] := by
  generalize turns : target - line = count at trimmed
  induction count generalizing line with
  | zero =>
    rw [trimFront, Option.some.injEq] at trimmed
    subst trimmed
    exact ⟨Nat.le_refl _, before, fun i lower upper => by omega⟩
  | succ count ih =>
    rw [trimFront, if_pos (by omega), collected_getElem? text above] at trimmed
    by_cases inside : line ≤ last
    · rw [if_pos inside] at trimmed
      by_cases blank : text line = []
      · simp only [Option.bind_eq_bind, Option.bind_some, blank, List.isEmpty_nil, if_true] at trimmed
        obtain ⟨lower, upper, blanks⟩ := ih (by omega) (by omega) (by omega) trimmed
        refine ⟨by omega, upper, fun i lower upper => ?_⟩
        rcases Nat.eq_or_lt_of_le lower with rfl | later
        · exact blank
        · exact blanks i later upper
      · have isText : (text line).isEmpty = false := by simpa using blank
        simp only [Option.bind_eq_bind, Option.bind_some, isText, Bool.false_eq_true, if_false,
          Option.some.injEq] at trimmed
        subst trimmed
        exact ⟨Nat.le_refl _, before, fun i lower upper => by omega⟩
    · rw [if_neg inside] at trimmed
      cases trimmed

variable (text) in
/-- The loop at the end stays in the vector, as it stops at the target. -/
theorem trimBack_some {target line : Nat} (above : first ≤ target) (within : line ≤ last) (before : target ≤ line) :
    ∃ found, trimBack ((lineNumbers first last).map text) first target (line - target) line = some found ∧
      target ≤ found ∧ found ≤ line ∧ ∀ i, found < i → i ≤ line → text i = [] := by
  generalize turns : line - target = count
  induction count generalizing line with
  | zero => exact ⟨line, rfl, before, Nat.le_refl line, fun i lower upper => by omega⟩
  | succ count ih =>
    rw [trimBack, if_pos (by omega), collected_getElem? text (by omega), if_pos within]
    by_cases blank : text line = []
    · obtain ⟨found, trimmed, lower, upper, blanks⟩ := ih (show line - 1 ≤ last by omega) (by omega) (by omega)
      refine ⟨found, ?_, lower, by omega, fun i lower upper => ?_⟩
      · simpa [blank] using trimmed
      · rcases Nat.eq_or_lt_of_le upper with rfl | earlier
        · exact blank
        · exact blanks i lower (by omega)
    · refine ⟨line, ?_, before, Nat.le_refl line, fun i lower upper => by omega⟩
      simp [blank]

end Trimming

section Windows

structure SourceFile where
  contents : Text
  small : contents.length ≤ maxSize

structure Request where
  targetLine : Nat
  contextSize : Nat
  positive : 1 ≤ targetLine
  fits : targetLine + contextSize < sizeModulus

namespace Request

variable (contents : Text) (request : Request)

def windowFirst : Nat := max 1 (request.targetLine - request.contextSize)

def windowLast : Nat := min (request.targetLine + request.contextSize) (lineCount contents)

def shownLine (column : Nullable) (color : Bool) (last line : Nat) : Text :=
  writeLineNumber request.targetLine color line ++ lineText contents line
    ++ (if line = request.targetLine && column.hasValue then writeCarrot color column.rawValue.toNat else [])
    ++ (if line ≠ last then "\n".toList else [])

/-- Consecutive lines around the target are shown, and what is left out of the window is blank. -/
def ShowsWindow (column : Nullable) (color : Bool) : Prop :=
  ∃ first last, request.windowFirst ≤ first ∧ first ≤ request.targetLine ∧ request.targetLine ≤ last ∧
    last ≤ request.windowLast contents ∧
    (∀ line, request.windowFirst ≤ line → line ≤ request.windowLast contents → line < first ∨ last < line →
      lineText contents line = []) ∧
    getSnippet (.new (some contents)) request.targetLine column request.contextSize color =
      some ((lineNumbers first last).map (request.shownLine contents column color last)).flatten

/-- Every read is in its vector, and for a target in the file the window is shown. -/
def SnippetCorrect (column : Nullable) (color : Bool) : Prop :=
  (getSnippet (.new (some contents)) request.targetLine column request.contextSize color).isSome = true ∧
    (request.targetLine ≤ lineCount contents → request.ShowsWindow contents column color)

/-- The target is behind the end by more than one line, and what the file has of the lines before it is
blank. -/
def BlankToEnd : Prop :=
  lineCount contents + 1 < request.targetLine ∧ 0 < request.contextSize ∧
    ∀ line, request.windowFirst ≤ line → line ≤ lineCount contents → lineText contents line = []

variable {contents request}

theorem firstOf_eq : firstOf request.targetLine request.contextSize = request.windowFirst := by
  have positive := request.positive
  have fits := request.fits
  have noWrap : (request.contextSize + 1) % sizeModulus = request.contextSize + 1 := Nat.mod_eq_of_lt (by omega)
  rw [firstOf, noWrap, windowFirst]
  split <;> omega

theorem lastOf_eq : lastOf (loaded contents) request.targetLine request.contextSize = request.windowLast contents := by
  rw [lastOf, numLines_loaded, Nat.mod_eq_of_lt request.fits]
  rfl

def collected (contents : Text) (request : Request) : List Text :=
  (lineNumbers request.windowFirst (request.windowLast contents)).map (lineText contents)

theorem getLines_eq : getLines (loaded contents) request.targetLine request.contextSize =
    (trimFront (request.collected contents) request.windowFirst request.targetLine
        (request.targetLine - request.windowFirst) request.windowFirst).bind fun first =>
      (trimBack (request.collected contents) request.windowFirst request.targetLine
          (request.windowLast contents - request.targetLine) (request.windowLast contents)).bind fun last =>
        some (some ⟨request.windowFirst, first, last, request.collected contents⟩) := by
  have reads : (lineNumbers request.windowFirst (request.windowLast contents)).mapM (loaded contents).getLine =
      some (request.collected contents) := by
    apply mapM_eq_some
    intro line member
    have range := (mem_lineNumbers ..).mp member
    have first : 1 ≤ request.windowFirst := Nat.le_max_left _ _
    have last : request.windowLast contents ≤ lineCount contents := Nat.min_le_right _ _
    exact getLine_loaded contents (by omega) (by omega)
  have isLoaded : (!(loaded contents).loadedContents) = false := rfl
  rw [getLines, isLoaded]
  simp only [Bool.false_eq_true, if_false, firstOf_eq, lastOf_eq, reads]
  rfl

theorem writeTurns_eq {first last : Nat} (lower : request.windowFirst ≤ first)
    (upper : last ≤ request.windowLast contents)
    (column : Nullable) (color : Bool) :
    (lineNumbers first last).mapM (writeTurn request.targetLine column color
      ⟨request.windowFirst, first, last, request.collected contents⟩) =
        some ((lineNumbers first last).map (request.shownLine contents column color last)) := by
  apply mapM_eq_some
  intro line member
  have range := (mem_lineNumbers ..).mp member
  rw [writeTurn, writeLine, collected, collected_getElem? _ (by omega), if_pos (by omega)]
  rfl

theorem new_small (file : SourceFile) : SnippetManager.new (some file.contents) = loaded file.contents :=
  if_neg (Nat.not_lt.mpr file.small)

theorem getSnippet_of_trimmed {first last : Nat} (column : Nullable) (color : Bool)
    (lower : request.windowFirst ≤ first) (upper : last ≤ request.windowLast contents)
    (front : trimFront (request.collected contents) request.windowFirst request.targetLine
      (request.targetLine - request.windowFirst) request.windowFirst = some first)
    (back : trimBack (request.collected contents) request.windowFirst request.targetLine
      (request.windowLast contents - request.targetLine) (request.windowLast contents) = some last) :
    getSnippet (loaded contents) request.targetLine column request.contextSize color =
      some ((lineNumbers first last).map (request.shownLine contents column color last)).flatten := by
  have turns := writeTurns_eq lower upper column color
  rw [getSnippet, getLines_eq, front, back]
  simp only [Option.bind_eq_bind, Option.bind_some]
  rw [turns]
  rfl

/-- For a target in the file both loops stop within the window, with only blank lines left out. -/
theorem exists_trimmed (inFile : request.targetLine ≤ lineCount contents) :
    ∃ first last,
      trimFront (request.collected contents) request.windowFirst request.targetLine
        (request.targetLine - request.windowFirst) request.windowFirst = some first ∧
      trimBack (request.collected contents) request.windowFirst request.targetLine
        (request.windowLast contents - request.targetLine) (request.windowLast contents) = some last ∧
      request.windowFirst ≤ first ∧ first ≤ request.targetLine ∧ request.targetLine ≤ last ∧
      last ≤ request.windowLast contents ∧
      ∀ line, request.windowFirst ≤ line → line ≤ request.windowLast contents → line < first ∨ last < line →
        lineText contents line = [] := by
  have lower : request.windowFirst ≤ request.targetLine := by
    have := request.positive
    unfold windowFirst
    omega
  have upper : request.targetLine ≤ request.windowLast contents := by
    unfold windowLast
    omega
  obtain ⟨last, back, targetLast, lastEnd, blanksBack⟩ := trimBack_some (lineText contents) lower (Nat.le_refl _) upper
  cases front : trimFront (request.collected contents) request.windowFirst request.targetLine
      (request.targetLine - request.windowFirst) request.windowFirst with
  | none =>
    -- the loop from the front cannot pass the target line
    have beyond := ((trimFront_eq_none_iff (Nat.le_refl _)).mp front).1
    omega
  | some first =>
    obtain ⟨startFirst, firstTarget, blanksFront⟩ := trimFront_some (Nat.le_refl _) lower front
    refine ⟨first, last, rfl, back, startFirst, firstTarget, targetLast, lastEnd, fun line start stop outside => ?_⟩
    rcases outside with before | behind
    · exact blanksFront line start before
    · exact blanksBack line behind stop

theorem showsWindow (file : SourceFile) (column : Nullable) (color : Bool)
    (inFile : request.targetLine ≤ lineCount file.contents) : request.ShowsWindow file.contents column color := by
  obtain ⟨first, last, front, back, startFirst, firstTarget, targetLast, lastEnd, blanks⟩ := exists_trimmed inFile
  refine ⟨first, last, startFirst, firstTarget, targetLast, lastEnd, blanks, ?_⟩
  rw [new_small file]
  exact getSnippet_of_trimmed column color startFirst lastEnd front back

/-- For a target beyond the end, the snippet is what the trimming in front leaves. -/
theorem isSome_getSnippet_iff (column : Nullable) (color : Bool) (beyond : lineCount contents < request.targetLine) :
    (getSnippet (loaded contents) request.targetLine column request.contextSize color).isSome = true ↔
      ¬ request.BlankToEnd contents := by
  have positive := request.positive
  have last : request.windowLast contents = lineCount contents := by
    unfold windowLast
    omega
  -- the target is behind all collected lines, so the loop at the end makes no turn
  have back : trimBack (request.collected contents) request.windowFirst request.targetLine
      (request.windowLast contents - request.targetLine) (request.windowLast contents) =
        some (request.windowLast contents) := by
    rw [last, Nat.sub_eq_zero_of_le (Nat.le_of_lt beyond)]
    rfl
  have runsOff : trimFront (request.collected contents) request.windowFirst request.targetLine
      (request.targetLine - request.windowFirst) request.windowFirst = none ↔ request.BlankToEnd contents := by
    have first : max request.windowFirst (lineCount contents + 1) < request.targetLine ↔
        lineCount contents + 1 < request.targetLine ∧ 0 < request.contextSize := by
      unfold windowFirst
      omega
    rw [collected, trimFront_eq_none_iff (Nat.le_refl _), last, first, and_assoc]
    rfl
  rw [← runsOff]
  cases front : trimFront (request.collected contents) request.windowFirst request.targetLine
      (request.targetLine - request.windowFirst) request.windowFirst with
  | none =>
    rw [getSnippet, getLines_eq, front]
    simp
  | some first =>
    have lower : request.windowFirst ≤ request.targetLine := by
      unfold windowFirst
      omega
    have start := (trimFront_some (Nat.le_refl _) lower front).1
    rw [getSnippet_of_trimmed column color start (Nat.le_refl _) front back]
    simp

end Request

/-- A snippet is read in bounds and shows the window just where the target is not so far behind blank
lines at the end of the file. -/
theorem snippetCorrect_iff (file : SourceFile) (request : Request) (column : Nullable) (color : Bool) :
    request.SnippetCorrect file.contents column color ↔ ¬ request.BlankToEnd file.contents := by
  rcases Nat.lt_or_ge (lineCount file.contents) request.targetLine with beyond | inFile
  · rw [Request.SnippetCorrect, Request.new_small, Request.isSome_getSnippet_iff column color beyond]
    exact and_iff_left fun inFile => absurd beyond (Nat.not_lt.mpr inFile)
  · have shows := Request.showsWindow file column color inFile
    have bounded : ¬ request.BlankToEnd file.contents := fun blank => by have := blank.1; omega
    refine ⟨fun _ => bounded, fun _ => ⟨?_, fun _ => shows⟩⟩
    obtain ⟨first, last, -, -, -, -, -, written⟩ := shows
    rw [written]
    rfl

def shortFile : SourceFile := ⟨"a\n".toList, by decide⟩

theorem snippetCorrect_fails :
    ¬ (⟨4, 2, by decide, by decide⟩ : Request).SnippetCorrect shortFile.contents .null false := by
  intro correct
  have inBounds := correct.1
  revert inBounds
  decide

end Windows

end Cpptrace.Snippets
