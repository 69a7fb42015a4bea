import Mathlib.Data.List.DropRight
import Mathlib.Data.List.ReduceOption

/-! Pieces joined by a separator: writing them, and trimming what was written.

A separator that is written with each piece but the last dangles where the last
piece is left out. Lines with visible ends are trimmed by trimming the first and
the last of them; a text with a blank line at an end loses that line.
-/

set_option autoImplicit false

namespace Cpptrace.Library

variable {α : Type}

/-- Write the pieces; `rest` is what has still to come. -/
def writeSeparated (separator : List α) : List (Option (List α)) → List α
  | [] => []
  | none :: rest => writeSeparated separator rest
  | some piece :: rest =>
      piece ++ (if rest.isEmpty then [] else separator) ++ writeSeparated separator rest

def Dangling (pieces : List (Option (List α))) : Prop :=
  pieces.getLast? = some none ∧ pieces.reduceOption ≠ []

theorem writeSeparated_nothing (separator : List α) (pieces : List (Option (List α)))
    (nothing : pieces.reduceOption = []) : writeSeparated separator pieces = [] := by
  induction pieces with
  | nil => rfl
  | cons piece rest ih =>
    cases piece with
    | none => exact ih nothing
    | some piece => simp at nothing

theorem Dangling_cons_none (rest : List (Option (List α))) :
    Dangling (none :: rest) ↔ Dangling rest := by
  cases rest with
  | nil => simp [Dangling]
  | cons next rest => simp [Dangling, List.getLast?_cons_cons]

theorem Dangling_cons_some (piece : List α) (next : Option (List α)) (rest : List (Option (List α))) :
    Dangling (some piece :: next :: rest) ↔ (next :: rest).getLast? = some none := by
  simp [Dangling, List.getLast?_cons_cons]

theorem getLast?_of_reduceOption_eq_nil (piece : Option (List α)) (rest : List (Option (List α)))
    (nothing : (piece :: rest).reduceOption = []) : (piece :: rest).getLast? = some none := by
  obtain ⟨count, replicated⟩ := (List.reduceOption_eq_nil_iff _).mp nothing
  have positive : count ≠ 0 := by
    rintro rfl
    simp at replicated
  rw [replicated, List.getLast?_replicate, if_neg positive]

open Classical in
theorem writeSeparated_eq (separator : List α) (pieces : List (Option (List α))) :
    writeSeparated separator pieces =
      separator.intercalate pieces.reduceOption ++ if Dangling pieces then separator else [] := by
  induction pieces with
  | nil => simp [writeSeparated, Dangling]
  | cons piece rest ih =>
    cases piece with
    | none => simp only [writeSeparated, ih, List.reduceOption_cons_of_none, Dangling_cons_none]
    | some piece =>
      cases rest with
      | nil => simp [writeSeparated, Dangling]
      | cons next rest =>
        simp only [writeSeparated, List.isEmpty_cons, List.reduceOption_cons_of_some]
        by_cases nothing : (next :: rest).reduceOption = []
        · have dangling := (Dangling_cons_some piece next rest).mpr
            (getLast?_of_reduceOption_eq_nil next rest nothing)
          simp [writeSeparated_nothing separator _ nothing, nothing, dangling]
        · have same : Dangling (some piece :: next :: rest) ↔ Dangling (next :: rest) := by
            rw [Dangling_cons_some]
            exact (and_iff_left nothing).symm
          rw [ih, List.intercalate_cons_of_ne_nil nothing]
          simp [same]

theorem writeSeparated_eq_intercalate_iff (separator : List α) (separates : separator ≠ [])
    (pieces : List (Option (List α))) :
    writeSeparated separator pieces = separator.intercalate pieces.reduceOption ↔ ¬ Dangling pieces := by
  rw [writeSeparated_eq]
  split <;> simp_all

section Lines

variable (blank : α → Bool) (separator : α)

def Blank (line : List α) : Prop := ∀ c ∈ line, blank c = true

instance (line : List α) : Decidable (Blank blank line) := inferInstanceAs (Decidable (∀ c ∈ line, blank c = true))

def trimmed (text : List α) : List α := (text.dropWhile blank).rdropWhile blank

def trimLast : List (List α) → List (List α)
  | [] => []
  | [line] => [line.rdropWhile blank]
  | line :: rest => line :: trimLast rest

def trimEnds (lines : List (List α)) : List (List α) := trimLast blank (lines.modifyHead (List.dropWhile blank))

def VisibleEnds (lines : List (List α)) : Prop :=
  (∀ line ∈ lines.head?, ¬ Blank blank line) ∧ ∀ line ∈ lines.getLast?, ¬ Blank blank line

instance (lines : List (List α)) : Decidable (VisibleEnds blank lines) := inferInstanceAs (Decidable (_ ∧ _))

variable {blank separator}

theorem length_trimLast (lines : List (List α)) : (trimLast blank lines).length = lines.length := by
  induction lines using trimLast.induct with
  | case1 => rfl
  | case2 line => rfl
  | case3 line rest several ih =>
    rw [trimLast, List.length_cons, List.length_cons, ih]
    exact several

theorem length_trimEnds (lines : List (List α)) : (trimEnds blank lines).length = lines.length := by
  rw [trimEnds, length_trimLast, List.length_modifyHead]

theorem sublist_of_mem_trimEnds {lines : List (List α)} {line : List α} (member : line ∈ trimEnds blank lines) :
    ∃ whole ∈ lines, line.Sublist whole := by
  have behind : ∀ lines : List (List α), ∀ line ∈ trimLast blank lines, ∃ whole ∈ lines, line.Sublist whole := by
    intro lines
    induction lines using trimLast.induct with
    | case1 => exact nofun
    | case2 only =>
      intro line member
      rw [trimLast, List.mem_singleton] at member
      exact ⟨only, List.mem_singleton_self _, member ▸ (List.rdropWhile_prefix _ _).sublist⟩
    | case3 first rest several ih =>
      intro line member
      rw [trimLast] at member
      · rcases List.mem_cons.mp member with rfl | later
        · exact ⟨line, List.mem_cons_self, .refl _⟩
        · obtain ⟨whole, listed, part⟩ := ih line later
          exact ⟨whole, List.mem_cons_of_mem _ listed, part⟩
      · exact several
  obtain ⟨middle, listed, part⟩ := behind _ line member
  cases lines with
  | nil => cases listed
  | cons first rest =>
    rcases List.mem_cons.mp listed with rfl | later
    · exact ⟨first, List.mem_cons_self, part.trans (List.dropWhile_suffix _).sublist⟩
    · exact ⟨middle, List.mem_cons_of_mem _ later, part⟩

theorem not_blank_iff {text : List α} : ¬ Blank blank text ↔ ∃ c ∈ text, blank c = false := by
  simp [Blank]

theorem blank_append {text rest : List α} : Blank blank (text ++ rest) ↔ Blank blank text ∧ Blank blank rest :=
  List.forall_mem_append

theorem dropWhile_eq_nil_iff {text : List α} : text.dropWhile blank = [] ↔ Blank blank text := by
  rw [List.dropWhile_eq_nil_iff]
  rfl

theorem dropWhile_append (text rest : List α) : (text ++ rest).dropWhile blank =
    if Blank blank text then rest.dropWhile blank else text.dropWhile blank ++ rest := by
  rw [List.dropWhile_append]
  simp only [List.isEmpty_iff, dropWhile_eq_nil_iff]

theorem rdropWhile_append (front text : List α) : (front ++ text).rdropWhile blank =
    if Blank blank text then front.rdropWhile blank else front ++ text.rdropWhile blank := by
  have turned : Blank blank text.reverse ↔ Blank blank text := by simp [Blank]
  rw [List.rdropWhile, List.reverse_append, dropWhile_append, List.rdropWhile, List.rdropWhile]
  simp only [turned]
  split
  · rfl
  · rw [List.reverse_append, List.reverse_reverse]

theorem blank_of_dropWhile {text : List α} (rest : Blank blank (text.dropWhile blank)) : Blank blank text := by
  rw [← List.takeWhile_append_dropWhile (p := blank) (l := text), blank_append]
  exact ⟨fun c member => List.mem_takeWhile_imp member, rest⟩

theorem trimmed_around {front back : List α} (before : Blank blank front) (after : Blank blank back)
    {text : List α} (visible : ¬ Blank blank text) : trimmed blank (front ++ text ++ back) = trimmed blank text := by
  have kept : ¬ Blank blank (text.dropWhile blank) := fun rest => visible (blank_of_dropWhile rest)
  rw [trimmed, trimmed, List.append_assoc, dropWhile_append, if_pos before, dropWhile_append, if_neg visible,
    rdropWhile_append, if_pos after]

theorem trimmed_sublist (text : List α) : (trimmed blank text).Sublist text :=
  (List.rdropWhile_prefix _ _).sublist.trans (List.dropWhile_suffix _).sublist

theorem intercalate_cons {line : List α} {rest : List (List α)} (several : rest ≠ []) :
    [separator].intercalate (line :: rest) = line ++ [separator] ++ [separator].intercalate rest :=
  List.intercalate_cons_of_ne_nil several

theorem intercalate_concat {lines : List (List α)} (line : List α) (several : lines ≠ []) :
    [separator].intercalate (lines ++ [line]) = [separator].intercalate lines ++ [separator] ++ line := by
  induction lines with
  | nil => exact absurd rfl several
  | cons first rest ih =>
    rcases eq_or_ne rest [] with rfl | more
    · rw [List.singleton_append, intercalate_cons (List.cons_ne_nil _ _), List.intercalate_singleton,
        List.intercalate_singleton]
    · rw [List.cons_append, intercalate_cons (by simp), ih more, intercalate_cons more]
      simp only [List.append_assoc]

theorem not_blank_intercalate {lines : List (List α)} {line : List α} (member : line ∈ lines)
    (visible : ¬ Blank blank line) : ¬ Blank blank ([separator].intercalate lines) := by
  induction lines with
  | nil => cases member
  | cons first rest ih =>
    rcases eq_or_ne rest [] with rfl | several
    · rw [List.mem_singleton] at member
      rwa [List.intercalate_singleton, ← member]
    · rw [intercalate_cons several, blank_append, blank_append]
      rcases List.mem_cons.mp member with rfl | later
      · exact fun all => visible all.1.1
      · exact fun all => ih later all.2

theorem rdropWhile_intercalate {lines : List (List α)} (last : ∀ line ∈ lines.getLast?, ¬ Blank blank line) :
    ([separator].intercalate lines).rdropWhile blank = [separator].intercalate (trimLast blank lines) := by
  induction lines using trimLast.induct with
  | case1 => rfl
  | case2 line => simp [trimLast]
  | case3 line rest several ih =>
    have nonempty : rest ≠ [] := fun none => several none
    have trimmed : trimLast blank rest ≠ [] := by
      rwa [← List.length_pos_iff, length_trimLast, List.length_pos_iff]
    rw [List.getLast?_cons_of_ne_nil nonempty] at last
    have visible : ¬ Blank blank ([separator].intercalate rest) :=
      not_blank_intercalate (List.getLast_mem nonempty) (last _ (List.getLast?_eq_some_getLast nonempty))
    rw [intercalate_cons nonempty, rdropWhile_append, if_neg visible, ih last, trimLast, intercalate_cons trimmed]
    exact several

theorem dropWhile_intercalate {line : List α} (visible : ¬ Blank blank line) (rest : List (List α)) :
    ([separator].intercalate (line :: rest)).dropWhile blank =
      [separator].intercalate (line.dropWhile blank :: rest) := by
  rcases eq_or_ne rest [] with rfl | several
  · rw [List.intercalate_singleton, List.intercalate_singleton]
  · rw [intercalate_cons several, List.append_assoc, dropWhile_append, if_neg visible, intercalate_cons several,
      List.append_assoc]

/-- Where the ends are visible, trimming a text is trimming its first and its last line. -/
theorem trimmed_intercalate {lines : List (List α)} (ends : VisibleEnds blank lines) :
    trimmed blank ([separator].intercalate lines) = [separator].intercalate (trimEnds blank lines) := by
  cases lines with
  | nil => rfl
  | cons line rest =>
    have first := ends.1 line rfl
    rw [trimmed, dropWhile_intercalate first, rdropWhile_intercalate]
    · rfl
    intro last found
    rcases eq_or_ne rest [] with rfl | several
    · cases found
      exact fun all => first (blank_of_dropWhile all)
    · rw [List.getLast?_cons_of_ne_nil several] at found
      refine ends.2 last ?_
      rwa [List.getLast?_cons_of_ne_nil several]

section Counting

variable [DecidableEq α]

theorem length_splitOn (c : α) (text : List α) : (text.splitOn c).length = text.count c + 1 := by
  induction text with
  | nil => rfl
  | cons head rest ih =>
    rw [List.splitOn_cons_eq_if_modifyHead, List.count_cons]
    split
    next same => rw [List.length_cons, ih]
    next differs => rw [List.length_modifyHead, ih, Nat.add_zero]

theorem count_intercalate {lines : List (List α)} (unbroken : ∀ line ∈ lines, separator ∉ line)
    (nonempty : lines ≠ []) :
    ([separator].intercalate lines).count separator + 1 = lines.length := by
  rw [← length_splitOn, List.splitOn_intercalate separator unbroken nonempty]

/-- A text with a blank line at one of its ends has fewer lines once it is trimmed. -/
theorem length_splitOn_trimmed_lt {lines : List (List α)} (unbroken : ∀ line ∈ lines, separator ∉ line)
    (separates : blank separator = true) (blankEnd : ¬ VisibleEnds blank lines) {ending : List α}
    (ended : Blank blank ending) (visible : ¬ Blank blank ([separator].intercalate lines)) :
    ((trimmed blank ([separator].intercalate lines ++ ending)).splitOn separator).length < lines.length := by
  -- the lines that are left, and what stands around them
  obtain ⟨fewer, front, back, same, before, after, less, inside⟩ :
      ∃ fewer front back, [separator].intercalate lines = front ++ [separator].intercalate fewer ++ back ∧
        Blank blank front ∧ Blank blank back ∧ fewer.length < lines.length ∧ ∀ line ∈ fewer, line ∈ lines := by
    have between : Blank blank [separator] := by simpa [Blank] using separates
    rcases not_and_or.mp blankEnd with first | last
    · cases lines with
      | nil => exact absurd (fun _ none => nomatch none) first
      | cons line rest =>
        have hidden : Blank blank line := by
          by_contra shown
          exact first fun other found => Option.some.inj found ▸ shown
        rcases eq_or_ne rest [] with rfl | several
        · rw [List.intercalate_singleton] at visible
          exact absurd hidden visible
        · refine ⟨rest, line ++ [separator], [], ?_, blank_append.mpr ⟨hidden, between⟩, nofun, by simp,
            fun _ => List.mem_cons_of_mem _⟩
          rw [List.append_nil, intercalate_cons several]
    · rcases List.eq_nil_or_concat lines with rfl | ⟨init, line, rfl⟩
      · exact absurd (fun _ none => nomatch none) last
      · have hidden : Blank blank line := by
          by_contra shown
          refine last fun other found => ?_
          rw [List.concat_eq_append, List.getLast?_concat] at found
          exact Option.some.inj found ▸ shown
        rcases eq_or_ne init [] with rfl | several
        · rw [List.concat_eq_append, List.nil_append, List.intercalate_singleton] at visible
          exact absurd hidden visible
        · refine ⟨init, [], [separator] ++ line, ?_, nofun, blank_append.mpr ⟨between, hidden⟩, by simp,
            fun _ => by simp +contextual⟩
          rw [List.concat_eq_append, List.nil_append, intercalate_concat line several, List.append_assoc]
  have shown : ¬ Blank blank ([separator].intercalate fewer) := fun all => visible (by
    rw [same, blank_append, blank_append]
    exact ⟨⟨before, all⟩, after⟩)
  have nonempty : fewer ≠ [] := by
    rintro rfl
    exact shown nofun
  rw [same, List.append_assoc, trimmed_around before (blank_append.mpr ⟨after, ended⟩) shown, length_splitOn]
  have fewerCount := count_intercalate (fun line member => unbroken line (inside line member)) nonempty
  have most : (trimmed blank ([separator].intercalate fewer)).count separator ≤
      ([separator].intercalate fewer).count separator := (trimmed_sublist _).count_le separator
  omega

end Counting

end Lines

end Cpptrace.Library
