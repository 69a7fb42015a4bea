import Cpptrace.Library.Joined
import Cpptrace.Snippets.Window

/-! The line table under both newline conventions.

A text without carriage returns has one line more than it has line feeds. Its
table gives the same lines when each line feed is written with a carriage return
in front of it.
-/

set_option autoImplicit false

namespace Cpptrace.Snippets

/-- A text with its line feeds as carriage return and line feed. -/
def withReturns (text : Text) : Text := text.flatMap fun c => if c = '\n' then ['\r', '\n'] else [c]

/-- The line table of a file tells the lines apart and stays within the file. -/
structure SplitsInto (contents : Text) (lines : List Text) : Prop where
  counts : (loaded contents).numLines - 1 = lines.length
  reads : ∀ k, 1 ≤ k → k ≤ lines.length → (loaded contents).getLine k = lines[k - 1]?
  bounded : ∀ range ∈ (loaded contents).lineTable, range.first ≤ range.last ∧ range.last ≤ contents.length

theorem stripReturn_eq_self {line : Text} (noReturn : '\r' ∉ line) : stripReturn line = line := by
  have differs : line.getLast? ≠ some '\r' := fun last => noReturn (List.mem_of_getLast? last)
  rw [stripReturn, if_neg differs]

theorem linesFrom_lineFeeds (current rest : Text) (noFeed : '\n' ∉ current) (noReturn : '\r' ∉ current ++ rest) :
    linesFrom current rest = (current ++ rest).splitOn '\n' := by
  induction rest generalizing current with
  | nil => rw [linesFrom, List.append_nil, List.splitOn_eq_singleton noFeed]
  | cons c rest ih =>
    rw [linesFrom]
    split
    next newline =>
      subst newline
      simp only [List.mem_append, List.mem_cons, not_or] at noReturn
      have later := ih [] List.not_mem_nil noReturn.2.2
      rw [List.splitOn_append_cons_self_of_not_mem noFeed, stripReturn_eq_self noReturn.1, later, List.nil_append]
    next other =>
      have shape : current ++ [c] ++ rest = current ++ c :: rest := by simp
      have fresh : '\n' ∉ current ++ [c] := by simp [noFeed, Ne.symm other]
      rw [ih (current ++ [c]) fresh (shape ▸ noReturn), shape]

theorem linesFrom_withReturns (current rest : Text) (noFeed : '\n' ∉ current) (noReturn : '\r' ∉ current ++ rest) :
    linesFrom current (withReturns rest) = (current ++ rest).splitOn '\n' := by
  induction rest generalizing current with
  | nil => rw [withReturns, List.flatMap_nil, linesFrom, List.append_nil, List.splitOn_eq_singleton noFeed]
  | cons c rest ih =>
    have front : withReturns (c :: rest) = (if c = '\n' then ['\r', '\n'] else [c]) ++ withReturns rest :=
      List.flatMap_cons
    rw [front]
    split
    next newline =>
      subst newline
      simp only [List.mem_append, List.mem_cons, not_or] at noReturn
      have later := ih [] List.not_mem_nil noReturn.2.2
      -- the return goes to the current line first, and is taken off it at the line feed
      have stripped : stripReturn (current ++ ['\r']) = current := by simp [stripReturn]
      rw [List.splitOn_append_cons_self_of_not_mem noFeed, List.cons_append, List.singleton_append, linesFrom,
        if_neg (by decide), linesFrom, if_pos rfl, stripped, later, List.nil_append]
    next other =>
      have shape : current ++ [c] ++ rest = current ++ c :: rest := by simp
      have fresh : '\n' ∉ current ++ [c] := by simp [noFeed, Ne.symm other]
      rw [List.singleton_append, linesFrom, if_neg other, ih (current ++ [c]) fresh (shape ▸ noReturn), shape]

/-- A line ends behind where it starts; the induction is on what is left of the file. -/
theorem lineRanges_bounded (done current rest : Text) (fresh : done = [] ∨ done.getLast? = some '\n') :
    ∀ range ∈ lineRanges (done ++ (current ++ rest)) done.length (done.length + current.length) rest,
      range.first ≤ range.last ∧ range.last ≤ (done ++ (current ++ rest)).length := by
  induction rest generalizing done current with
  | nil =>
    intro range member
    obtain rfl := List.mem_singleton.mp member
    simp
  | cons c rest ih =>
    intro range member
    rw [lineRanges] at member
    split at member
    next newline =>
      rcases List.mem_cons.mp member with rfl | later
      · dsimp only
        split
        next shortened =>
          -- an empty line has the line feed of the line before it in front, or nothing
          have nonempty : current ≠ [] := by
            rintro rfl
            obtain ⟨positive, ends⟩ := shortened
            rcases fresh with rfl | feed
            · exact absurd positive (Nat.lt_irrefl 0)
            · rw [List.length_nil, Nat.add_zero] at positive ends
              rw [List.getElem?_append_left (by omega), ← List.getLast?_eq_getElem?, feed] at ends
              exact absurd ends (by decide)
          have positive := List.length_pos_iff.mpr nonempty
          simp only [List.length_append, List.length_cons]
          omega
        next =>
          simp only [List.length_append, List.length_cons]
          omega
      · have next := ih (done ++ current ++ [c]) [] (.inr (by simp [newline]))
        have shape : done ++ current ++ [c] ++ ([] ++ rest) = done ++ (current ++ c :: rest) := by simp
        have position : (done ++ current ++ [c]).length = done.length + current.length + 1 := by simp; omega
        rw [shape, List.length_nil, Nat.add_zero, position] at next
        exact next range later
    next =>
      have next := ih done (current ++ [c]) fresh
      have shape : done ++ (current ++ [c] ++ rest) = done ++ (current ++ c :: rest) := by simp
      rw [shape, List.length_append, List.length_singleton, ← Nat.add_assoc] at next
      exact next range member

theorem splitsInto_fileLines (contents : Text) : SplitsInto contents (fileLines contents) where
  counts := by
    rw [numLines_loaded, lineCount, Nat.add_sub_cancel]
  reads := by
    intro k positive within
    rw [getLine_loaded contents positive within, lineText, List.getD_eq_getElem?_getD,
      List.getElem?_eq_getElem (by omega), Option.getD_some]
  bounded := by
    intro range member
    rcases List.mem_cons.mp member with rfl | listed
    · exact ⟨Nat.le_refl 0, Nat.zero_le _⟩
    · exact lineRanges_bounded [] [] contents (.inl rfl) range listed

/-- The table of a text without carriage returns, in either convention, has the pieces between its
line feeds. -/
theorem lineTable_splits (text : Text) (noReturn : '\r' ∉ text) :
    (text.splitOn '\n').length = text.count '\n' + 1 ∧
      SplitsInto text (text.splitOn '\n') ∧ SplitsInto (withReturns text) (text.splitOn '\n') := by
  have feeds : fileLines text = text.splitOn '\n' := linesFrom_lineFeeds [] text List.not_mem_nil noReturn
  have returns : fileLines (withReturns text) = text.splitOn '\n' :=
    linesFrom_withReturns [] text List.not_mem_nil noReturn
  refine ⟨Library.length_splitOn '\n' text, ?_, ?_⟩
  · exact feeds ▸ splitsInto_fileLines text
  · exact returns ▸ splitsInto_fileLines (withReturns text)

theorem lineTable_splits_at_blank :
    ("a\n\nb\n".toList.splitOn '\n').length = "a\n\nb\n".toList.count '\n' + 1 ∧
      SplitsInto "a\n\nb\n".toList ("a\n\nb\n".toList.splitOn '\n') ∧
      SplitsInto (withReturns "a\n\nb\n".toList) ("a\n\nb\n".toList.splitOn '\n') :=
  lineTable_splits "a\n\nb\n".toList (by decide)

end Cpptrace.Snippets
