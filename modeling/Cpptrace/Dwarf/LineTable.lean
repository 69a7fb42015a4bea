import Cpptrace.Dwarf.Ranges
import Cpptrace.Library.SortedLookup

/-! Which row of a line table an address belongs to.

When speed is prioritized, rows at one address that follow each other are
compressed to the last of them, and the rest is sorted and searched. Otherwise
the table is scanned: a row at the address is taken, and so is the row held from
below when a row above is met.
-/

set_option autoImplicit false

namespace Cpptrace.Dwarf

open Cpptrace.Library

structure Row where
  address : FramePtr
  endSequence : Bool
  line : UInt64
  column : UInt64
  file : Text
  deriving DecidableEq, Repr

structure LineEntry where
  low : FramePtr
  line : Row
  deriving DecidableEq, Repr

abbrev LineSorter := (entries : List LineEntry) → Sorting LineEntry.low entries

/-- The entries from a run at `low` on, of which `line` is the last row so far. -/
def lineEntriesFrom (low : FramePtr) (line : Row) : List Row → List LineEntry
  | [] => [⟨low, line⟩]
  | next :: rest =>
      if next.address = low then lineEntriesFrom low next rest
      else ⟨low, line⟩ :: lineEntriesFrom next.address next rest

def lineEntries : List Row → List LineEntry
  | [] => []
  | row :: rest => lineEntriesFrom row.address row rest

/-- A frame takes the line number, cut to 32 bits, and the file of a row. -/
def writeLine (row : Row) (frame : StacktraceFrame) : StacktraceFrame :=
  { frame with line := ⟨row.line.toUInt32⟩, filename := row.file }

/-- The `prioritize_speed` path of `retrieve_line_info`, which sets the column as well. -/
def retrieveLineInfoLookup (sorter : LineSorter) (rows : List Row) (pc : FramePtr) (frame : StacktraceFrame) :
    StacktraceFrame :=
  match firstLessThanOrEqual LineEntry.low pc (sorter (lineEntries rows)).sorted with
  | none => frame
  | some entry => { writeLine entry.line frame with column := ⟨entry.line.column.toUInt32⟩ }

def lastAt (pc : FramePtr) (line : Row) (rest : List Row) : Row :=
  rest.foldl (fun found row => if pc = row.address then row else found) line

/-- The row the scan takes at `row`, where `last` is the line it holds. -/
def foundLine (pc : FramePtr) (last : Option Row) (row : Row) (rest : List Row) : Option Row :=
  if pc = row.address then some (lastAt pc row rest)
  else last.filter fun last => last.address < pc && pc < row.address

/-- The scan of the table. The line held is not changed where a row is taken. -/
def scanLines (pc : FramePtr) : Option Row → List Row → StacktraceFrame → StacktraceFrame
  | _, [], frame => frame
  | last, row :: rest, frame =>
      match foundLine pc last row rest with
      | some found => scanLines pc last rest (writeLine found frame)
      | none => scanLines pc (if row.endSequence then none else some row) rest frame

/-- The path of `retrieve_line_info` through the whole table. -/
def retrieveLineInfoScan (rows : List Row) (pc : FramePtr) (frame : StacktraceFrame) : StacktraceFrame :=
  scanLines pc none rows frame

structure Sequence where
  body : List Row
  last : Row
  opened : ∀ row ∈ body, row.endSequence = false
  closed : last.endSequence = true
  ordered : (body ++ [last]).Pairwise fun row later => row.address ≤ later.address

namespace Sequence

def rows (sequence : Sequence) : List Row := sequence.body ++ [sequence.last]

def start (sequence : Sequence) : FramePtr := (sequence.body.head?.getD sequence.last).address

def interval (sequence : Sequence) : Range := ⟨sequence.start, sequence.last.address⟩

end Sequence

/-- A line table: sequences in any order, over separate addresses. -/
structure LineTable where
  sequences : List Sequence
  disjoint : (sequences.map Sequence.interval).Pairwise Range.Disjoint

def LineTable.rows (table : LineTable) : List Row := table.sequences.flatMap Sequence.rows

def LineTable.Covers (table : LineTable) (pc : FramePtr) : Prop :=
  ∃ sequence ∈ table.sequences, sequence.interval.contains pc = true

def EndsRun (rows : List Row) (row : Row) : Prop :=
  ∃ front back, rows = front ++ row :: back ∧ ∀ next, back.head? = some next → next.address ≠ row.address

theorem EndsRun_cons_iff (line row : Row) (rest : List Row) :
    EndsRun (line :: rest) row ↔
      (row = line ∧ ∀ next, rest.head? = some next → next.address ≠ line.address) ∨ EndsRun rest row := by
  constructor
  · rintro ⟨front, back, split, apart⟩
    cases front with
    | nil =>
      obtain ⟨rfl, rfl⟩ := List.cons.inj split
      exact .inl ⟨rfl, apart⟩
    | cons first front =>
      obtain ⟨-, rfl⟩ := List.cons.inj split
      exact .inr ⟨front, back, rfl, apart⟩
  · rintro (⟨rfl, apart⟩ | ⟨front, back, rfl, apart⟩)
    · exact ⟨[], rest, rfl, apart⟩
    · exact ⟨line :: front, back, rfl, apart⟩

theorem mem_lineEntriesFrom (line : Row) (rest : List Row) (entry : LineEntry) :
    entry ∈ lineEntriesFrom line.address line rest ↔
      entry.low = entry.line.address ∧ EndsRun (line :: rest) entry.line := by
  obtain ⟨low, row⟩ := entry
  induction rest generalizing line with
  | nil =>
    rw [EndsRun_cons_iff]
    simp only [lineEntriesFrom, List.mem_singleton, LineEntry.mk.injEq]
    constructor
    · rintro ⟨rfl, rfl⟩
      exact ⟨rfl, .inl ⟨rfl, fun next none => nomatch none⟩⟩
    · rintro ⟨rfl, ⟨rfl, -⟩ | ⟨front, back, split, -⟩⟩
      · exact ⟨rfl, rfl⟩
      · simp at split
  | cons next rest ih =>
    rw [EndsRun_cons_iff, lineEntriesFrom]
    simp only [List.head?_cons, Option.some.injEq, forall_eq']
    split
    -- the next row has the address too, so this one ends no run
    next same =>
      rw [← same, ih next]
      simp [same]
    next apart =>
      rw [List.mem_cons, ih next, LineEntry.mk.injEq]
      constructor
      · rintro (⟨rfl, rfl⟩ | ⟨same, run⟩)
        · exact ⟨rfl, .inl ⟨rfl, apart⟩⟩
        · exact ⟨same, .inr run⟩
      · rintro ⟨same, ⟨rfl, -⟩ | run⟩
        · exact .inl ⟨same, rfl⟩
        · exact .inr ⟨same, run⟩

theorem mem_lineEntries (rows : List Row) (entry : LineEntry) :
    entry ∈ lineEntries rows ↔ entry.low = entry.line.address ∧ EndsRun rows entry.line := by
  cases rows with
  | nil => simp [lineEntries, EndsRun]
  | cons row rest => exact mem_lineEntriesFrom row rest entry

theorem exists_endsRun (rows : List Row) (row : Row) (member : row ∈ rows) :
    ∃ last, EndsRun rows last ∧ last.address = row.address := by
  induction rows generalizing row with
  | nil => cases member
  | cons line rest ih =>
    rcases List.mem_cons.mp member with rfl | within
    · cases rest with
      | nil => exact ⟨row, (EndsRun_cons_iff ..).mpr (.inl ⟨rfl, fun next none => nomatch none⟩), rfl⟩
      | cons next rest =>
        by_cases same : next.address = row.address
        · obtain ⟨last, run, at_next⟩ := ih next List.mem_cons_self
          exact ⟨last, (EndsRun_cons_iff ..).mpr (.inr run), at_next.trans same⟩
        · exact ⟨row, (EndsRun_cons_iff ..).mpr (.inl ⟨rfl, by simpa using same⟩), rfl⟩
    · obtain ⟨last, run, same⟩ := ih row within
      exact ⟨last, (EndsRun_cons_iff ..).mpr (.inr run), same⟩

section

variable (pc : FramePtr)

/-- The end of a run at the greatest address up to `pc`. -/
structure Nearest (rows : List Row) (row : Row) : Prop where
  run : EndsRun rows row
  le : row.address ≤ pc
  greatest : ∀ other ∈ rows, other.address ≤ pc → other.address ≤ row.address

theorem nearest_iff (rows : List Row) (row : Row) :
    Nearest pc rows row ↔ Greatest LineEntry.low pc (lineEntries rows) ⟨row.address, row⟩ := by
  constructor
  · rintro ⟨run, le, greatest⟩
    refine ⟨(mem_lineEntries ..).mpr ⟨rfl, run⟩, le, fun other member le' => ?_⟩
    obtain ⟨same, front, back, split, -⟩ := (mem_lineEntries ..).mp member
    rw [same] at le' ⊢
    exact greatest other.line (by simp [split]) le'
  · rintro ⟨member, le, greatest⟩
    refine ⟨((mem_lineEntries ..).mp member).2, le, fun other within le' => ?_⟩
    obtain ⟨last, run, same⟩ := exists_endsRun rows other within
    rw [← same] at le' ⊢
    exact greatest ⟨last.address, last⟩ ((mem_lineEntries ..).mpr ⟨rfl, run⟩) le'

/-- The row held when the rows of a list have been passed: the last one below `pc`,
unless it ends a sequence. -/
def Holds (rows : List Row) (held : Row) : Prop :=
  ∃ front between, rows = front ++ held :: between ∧ held.address < pc ∧ held.endSequence = false ∧
    ∀ row ∈ between, pc ≤ row.address

/-- A row behind others answers with itself when it is at `pc`, and with the row held
when it is above. -/
def Responds (rows : List Row) (row answer : Row) : Prop :=
  (row.address = pc ∧ answer = row) ∨ (pc < row.address ∧ Holds pc rows answer)

def Answers (rows : List Row) (index : Nat) (answer : Row) : Prop :=
  ∃ row, rows[index]? = some row ∧ Responds pc (rows.take index) row answer

structure LastAnswer (rows : List Row) (index : Nat) (answer : Row) : Prop where
  answers : Answers pc rows index answer
  last : ∀ later other, index < later → ¬ Answers pc rows later other

def scanStep (state : Option Row × Option Row) (row : Row) : Option Row × Option Row :=
  if row.address < pc then (if row.endSequence then none else some row, state.2)
  else if row.address = pc then (state.1, some row)
  else (state.1, state.1.or state.2)

theorem foldl_answer_overwritten (rows : List Row) (held : Option Row) (answer other : Option Row)
    (row : Row) (member : row ∈ rows) (here : row.address = pc) :
    (rows.foldl (scanStep pc) (held, answer)).2 = (rows.foldl (scanStep pc) (held, other)).2 := by
  induction rows generalizing held answer other with
  | nil => cases member
  | cons first rest ih =>
    simp only [List.foldl_cons, scanStep]
    rcases List.mem_cons.mp member with rfl | within
    · simp [here]
    · split
      · exact ih _ _ _ within
      · split
        · rfl
        · exact ih _ _ _ within

theorem lastAt_eq (line : Row) (rest : List Row) (absent : ∀ row ∈ rest, row.address ≠ pc) :
    lastAt pc line rest = line := by
  induction rest with
  | nil => rfl
  | cons row rest ih =>
    have differ : pc ≠ row.address := (absent row List.mem_cons_self).symm
    rw [lastAt, List.foldl_cons, if_neg differ]
    exact ih fun other member => absent other (List.mem_cons_of_mem _ member)

def answered (answer : Option Row) (frame : StacktraceFrame) : StacktraceFrame :=
  match answer with
  | some row => writeLine row frame
  | none => frame

theorem writeLine_answered (row : Row) (answer : Option Row) (frame : StacktraceFrame) :
    writeLine row (answered answer frame) = answered (some row) frame := by
  cases answer <;> rfl

theorem scanLines_eq (rows : List Row) (last answer : Option Row) (frame : StacktraceFrame) :
    scanLines pc last rows (answered answer frame) =
      answered (rows.foldl (scanStep pc) (last.filter (fun last => last.address < pc), answer)).2 frame := by
  induction rows generalizing last answer with
  | nil => rfl
  | cons row rest ih =>
    rw [scanLines, List.foldl_cons]
    rcases lt_trichotomy row.address pc with below | here | above
    -- a row below answers nothing, and is held unless it ends its sequence
    · have differ : pc ≠ row.address := (ne_of_lt below).symm
      have passed : ¬ pc < row.address := not_lt.mpr (le_of_lt below)
      have nothing : foundLine pc last row rest = none := by simp [foundLine, differ, passed]
      have kept : (if row.endSequence then none else some row).filter (fun last : Row => decide (last.address < pc)) =
          if row.endSequence then none else some row := by
        split <;> simp [below]
      rw [nothing, scanStep, if_pos below]
      dsimp only
      rw [ih, kept]
    · have found : foundLine pc last row rest = some (lastAt pc row rest) := by simp [foundLine, here]
      have level : ¬ row.address < pc := by rw [here]; exact lt_irrefl _
      rw [found, scanStep, if_neg level, if_pos here]
      dsimp only
      rw [writeLine_answered, ih]
      -- the scan looks ahead to the last row of the run, and so does each later row of it:
      -- the answer is written again by the rows of the run that follow
      by_cases again : ∃ other ∈ rest, other.address = pc
      · obtain ⟨other, member, at_pc⟩ := again
        rw [foldl_answer_overwritten pc rest _ (some (lastAt pc row rest)) (some row) other member at_pc]
      · rw [lastAt_eq pc row rest fun other member at_pc => again ⟨other, member, at_pc⟩]
    · have differ : pc ≠ row.address := ne_of_lt above
      have level : ¬ row.address < pc := not_lt.mpr (le_of_lt above)
      have beyond : ¬ row.address = pc := differ.symm
      have found : foundLine pc last row rest = last.filter fun last => last.address < pc := by
        simp [foundLine, differ, above]
      rw [found, scanStep, if_neg level, if_neg beyond]
      -- the row is above: the line held answers, and is held on
      cases held : last.filter fun last => last.address < pc with
      | some line =>
        dsimp only
        rw [writeLine_answered, ih, held]
        rfl
      | none =>
        have dropped : (if row.endSequence then none else some row).filter
            (fun last : Row => decide (last.address < pc)) = none := by
          split <;> simp [le_of_lt above]
        dsimp only
        rw [ih, dropped]
        rfl

theorem Holds_append_singleton (rows : List Row) (row held : Row) :
    Holds pc (rows ++ [row]) held ↔
      if row.address < pc then row.endSequence = false ∧ held = row else Holds pc rows held := by
  constructor
  · rintro ⟨front, between, split, below, opened, above⟩
    rcases List.eq_nil_or_concat between with rfl | ⟨before, last, rfl⟩
    · obtain ⟨-, same⟩ := List.append_inj' split rfl
      obtain rfl := List.singleton_inj.mp same
      rw [if_pos below]
      exact ⟨opened, rfl⟩
    · rw [List.concat_eq_append] at split above
      rw [← List.cons_append, ← List.append_assoc] at split
      obtain ⟨rfl, same⟩ := List.append_inj' split rfl
      obtain rfl := List.singleton_inj.mp same
      have level : ¬ row.address < pc := not_lt.mpr (above row (by simp))
      rw [if_neg level]
      exact ⟨front, before, rfl, below, opened, fun other member => above other (by simp [member])⟩
  · split
    · rintro ⟨opened, rfl⟩
      exact ⟨rows, [], rfl, by assumption, opened, fun other member => absurd member List.not_mem_nil⟩
    next level =>
      rintro ⟨front, between, rfl, below, opened, above⟩
      refine ⟨front, between ++ [row], by simp, below, opened, fun other member => ?_⟩
      rcases List.mem_append.mp member with within | same
      · exact above other within
      · rw [List.mem_singleton.mp same]
        exact not_lt.mp level

theorem foldl_held_iff (rows : List Row) (held : Row) :
    (rows.foldl (scanStep pc) (none, none)).1 = some held ↔ Holds pc rows held := by
  -- from the back: whether a row is held depends on the rows before it only
  induction rows using List.reverseRecOn with
  | nil => simp [Holds]
  | append_singleton rows row ih =>
    rw [List.foldl_append, List.foldl_cons, List.foldl_nil, Holds_append_singleton, scanStep]
    split
    · cases ends : row.endSequence <;> simp [eq_comm]
    · split <;> exact ih

theorem Answers_append_iff (rows : List Row) (row : Row) (index : Nat) (answer : Row) :
    Answers pc (rows ++ [row]) index answer ↔
      Answers pc rows index answer ∨ (index = rows.length ∧ Responds pc rows row answer) := by
  simp only [Answers]
  rcases Nat.lt_trichotomy index rows.length with within | rfl | beyond
  · rw [List.getElem?_append_left within, List.take_append_of_le_length (Nat.le_of_lt within)]
    simp [Nat.ne_of_lt within]
  · simp
  · have outside : (rows ++ [row])[index]? = none := by
      rw [List.getElem?_eq_none_iff, List.length_append, List.length_singleton]
      exact beyond
    have past : rows[index]? = none := List.getElem?_eq_none (Nat.le_of_lt beyond)
    simp [outside, past, Nat.ne_of_gt beyond]

theorem Answers.lt_length {rows : List Row} {index : Nat} {answer : Row} (answers : Answers pc rows index answer) :
    index < rows.length := by
  obtain ⟨row, found, -⟩ := answers
  exact (List.getElem?_eq_some_iff.mp found).1

theorem LastAnswer_append_of_silent (rows : List Row) (row answer : Row)
    (silent : ∀ other, ¬ Responds pc rows row other) :
    (∃ index, LastAnswer pc (rows ++ [row]) index answer) ↔ ∃ index, LastAnswer pc rows index answer := by
  have same : ∀ index other, Answers pc (rows ++ [row]) index other ↔ Answers pc rows index other := by
    intro index other
    rw [Answers_append_iff]
    exact or_iff_left fun here => silent other here.2
  constructor
  · rintro ⟨index, answers, last⟩
    exact ⟨index, (same ..).mp answers, fun later other after => mt (same ..).mpr (last later other after)⟩
  · rintro ⟨index, answers, last⟩
    exact ⟨index, (same ..).mpr answers, fun later other after => mt (same ..).mp (last later other after)⟩

theorem LastAnswer_append_of_responds (rows : List Row) (row response answer : Row)
    (responds : ∀ other, Responds pc rows row other ↔ other = response) :
    (∃ index, LastAnswer pc (rows ++ [row]) index answer) ↔ answer = response := by
  have final : Answers pc (rows ++ [row]) rows.length response :=
    (Answers_append_iff ..).mpr (.inr ⟨rfl, (responds response).mpr rfl⟩)
  constructor
  · rintro ⟨index, answers, last⟩
    rcases (Answers_append_iff ..).mp answers with before | ⟨-, here⟩
    · exact absurd final (last rows.length response before.lt_length)
    · exact (responds answer).mp here
  · rintro rfl
    refine ⟨rows.length, final, fun later other after answers => ?_⟩
    have bound := answers.lt_length
    rw [List.length_append, List.length_singleton] at bound
    omega

/-- The answer of the scan is the last one given by a row. -/
theorem foldl_answer_iff (rows : List Row) (answer : Row) :
    (rows.foldl (scanStep pc) (none, none)).2 = some answer ↔ ∃ index, LastAnswer pc rows index answer := by
  induction rows using List.reverseRecOn generalizing answer with
  | nil =>
    simp only [List.foldl_nil, reduceCtorEq, false_iff, not_exists]
    rintro index ⟨answers, -⟩
    exact absurd answers.lt_length (Nat.not_lt_zero _)
  | append_singleton rows row ih =>
    -- only the last row matters: it responds and replaces the answer, or leaves it
    have held := foldl_held_iff pc rows
    rw [List.foldl_append, List.foldl_cons, List.foldl_nil, scanStep]
    rcases lt_trichotomy row.address pc with below | here | above
    · rw [if_pos below, LastAnswer_append_of_silent]
      · exact ih answer
      · rintro other (⟨at_pc, -⟩ | ⟨above, -⟩)
        · exact ne_of_lt below at_pc
        · exact lt_asymm below above
    · have level : ¬ row.address < pc := by rw [here]; exact lt_irrefl _
      rw [if_neg level, if_pos here, LastAnswer_append_of_responds pc rows row row answer, Option.some.injEq]
      · exact eq_comm
      · simp [Responds, here]
    · have level : ¬ row.address < pc := not_lt.mpr (le_of_lt above)
      have beyond : ¬ row.address = pc := ne_of_gt above
      rw [if_neg level, if_neg beyond]
      cases line : (rows.foldl (scanStep pc) (none, none)).1 with
      | some line' =>
        rw [LastAnswer_append_of_responds pc rows row line' answer, Option.some_or, Option.some.injEq]
        · exact eq_comm
        · intro other
          simp only [Responds, beyond, false_and, above, true_and, false_or]
          rw [← held other, line, Option.some.injEq]
          exact eq_comm
      | none =>
        rw [LastAnswer_append_of_silent, Option.none_or]
        · exact ih answer
        · rintro other (⟨at_pc, -⟩ | ⟨-, holds⟩)
          · exact beyond at_pc
          · rw [← held other, line] at holds
            cases holds

/-- A row that answers for `pc` itself, with no answer after it, is the nearest row. -/
theorem LastAnswer.nearest {rows : List Row} {index : Nat} {answer : Row}
    (lastAnswer : LastAnswer pc rows index answer) (here : answer.address = pc) : Nearest pc rows answer := by
  obtain ⟨row, found, responds⟩ := lastAnswer.answers
  have same : answer = row := by
    rcases responds with ⟨-, same⟩ | ⟨-, -, -, -, below, -⟩
    · exact same
    · exact absurd here (ne_of_lt below)
  subst same
  obtain ⟨bound, at_index⟩ := List.getElem?_eq_some_iff.mp found
  refine ⟨⟨rows.take index, rows.drop (index + 1), ?_, fun next following at_same => ?_⟩, le_of_eq here,
    fun other _ le => here ▸ le⟩
  · rw [← at_index, List.getElem_cons_drop, List.take_append_drop]
  · rw [List.head?_drop] at following
    exact lastAnswer.last (index + 1) next (Nat.lt_succ_self _)
      ⟨next, following, .inl ⟨at_same.trans here, rfl⟩⟩

theorem foldl_answer_kept (rows : List Row) (state : Option Row × Option Row) (some : state.2.isSome) :
    (rows.foldl (scanStep pc) state).2.isSome := by
  induction rows generalizing state with
  | nil => exact some
  | cons row rest ih =>
    refine ih _ ?_
    rw [scanStep]
    split
    · exact some
    · split
      · rfl
      · simp [some]

/-- A line that is held is the answer of the row above that ends its sequence. -/
theorem foldl_answer_of_held (body : List Row) (last : Row) (opened : ∀ row ∈ body, row.endSequence = false)
    (beyond : pc < last.address) (state : Option Row × Option Row) (held : state.1.isSome) :
    ((body ++ [last]).foldl (scanStep pc) state).2.isSome := by
  induction body generalizing state with
  | nil =>
    have level : ¬ last.address < pc := not_lt.mpr (le_of_lt beyond)
    simp [scanStep, level, ne_of_gt beyond, held]
  | cons row rest ih =>
    have open_row : row.endSequence = false := opened row List.mem_cons_self
    have open_rest := fun other member => opened other (List.mem_cons_of_mem _ member)
    rw [List.cons_append, List.foldl_cons]
    by_cases below : row.address < pc
    · refine ih open_rest _ ?_
      simp [scanStep, below, open_row]
    · refine foldl_answer_kept pc _ _ ?_
      rw [scanStep, if_neg below]
      split
      · rfl
      · simp [held]

theorem foldl_answer_of_sequence (sequence : Sequence) (inside : sequence.interval.contains pc = true)
    (state : Option Row × Option Row) : (sequence.rows.foldl (scanStep pc) state).2.isSome := by
  obtain ⟨body, last, opened, closed, ordered⟩ := sequence
  obtain ⟨from_start, to_end⟩ := (Range.contains_iff ..).mp inside
  simp only [Sequence.interval, Sequence.start] at from_start to_end
  cases body with
  | nil => exact absurd from_start (not_le.mpr to_end)
  | cons row rest =>
    have open_row : row.endSequence = false := opened row List.mem_cons_self
    have open_rest := fun other member => opened other (List.mem_cons_of_mem _ member)
    simp only [Sequence.rows, List.cons_append, List.foldl_cons, scanStep]
    rcases lt_or_eq_of_le from_start with below | here
    · have row_below : row.address < pc := below
      exact foldl_answer_of_held pc rest last open_rest to_end _ (by simp [open_row, row_below])
    · refine foldl_answer_kept pc _ _ ?_
      have at_pc : row.address = pc := here
      simp [at_pc]

end

section

variable {table : LineTable} {pc : FramePtr}

theorem LineTable.Covers.exists_answer (covered : table.Covers pc) :
    ∃ index answer, LastAnswer pc table.rows index answer ∧
      (table.rows.foldl (scanStep pc) (none, none)).2 = some answer := by
  obtain ⟨sequence, member, inside⟩ := covered
  obtain ⟨before, after, split⟩ := List.append_of_mem member
  have answered : (table.rows.foldl (scanStep pc) (none, none)).2.isSome := by
    rw [LineTable.rows, split, List.flatMap_append, List.flatMap_cons, List.foldl_append, List.foldl_append]
    exact foldl_answer_kept pc _ _ (foldl_answer_of_sequence pc sequence inside _)
  obtain ⟨answer, found⟩ := Option.isSome_iff_exists.mp answered
  obtain ⟨index, last⟩ := (foldl_answer_iff pc table.rows answer).mp found
  exact ⟨index, answer, last, found⟩

theorem LineTable.Covers.exists_row_le (covered : table.Covers pc) : ∃ row ∈ table.rows, row.address ≤ pc := by
  obtain ⟨sequence, member, inside⟩ := covered
  have within : ∀ row ∈ sequence.rows, row ∈ table.rows := fun row mine =>
    List.mem_flatMap.mpr ⟨sequence, member, mine⟩
  obtain ⟨from_start, -⟩ := (Range.contains_iff ..).mp inside
  refine ⟨sequence.body.head?.getD sequence.last, within _ ?_, from_start⟩
  rw [Sequence.rows]
  cases sequence.body <;> simp

/-- A lookup takes the column, the line and the file of a nearest row. -/
theorem retrieveLineInfoLookup_nearest (covered : table.Covers pc) (sorter : LineSorter) (frame : StacktraceFrame) :
    ∃ row, Nearest pc table.rows row ∧ retrieveLineInfoLookup sorter table.rows pc frame =
      { writeLine row frame with column := ⟨row.column.toUInt32⟩ } := by
  rw [retrieveLineInfoLookup]
  cases found : firstLessThanOrEqual LineEntry.low pc (sorter (lineEntries table.rows)).sorted with
  | none =>
    obtain ⟨row, member, le⟩ := covered.exists_row_le
    obtain ⟨last, run, same⟩ := exists_endsRun table.rows row member
    have above := ((sorter _).found_none_iff pc).mp found ⟨last.address, last⟩
      ((mem_lineEntries ..).mpr ⟨rfl, run⟩)
    exact absurd (same ▸ le) above
  | some entry =>
    have greatest := (sorter _).found_greatest pc entry found
    obtain ⟨low, row⟩ := entry
    have same : low = row.address := ((mem_lineEntries ..).mp greatest.member).1
    subst same
    exact ⟨row, (nearest_iff pc table.rows row).mpr greatest, rfl⟩

/-- Any nearest row is the one that a lookup takes, under some sort. -/
theorem exists_lookup (row : Row) (rows : List Row) (nearest : Nearest pc rows row) (frame : StacktraceFrame) :
    ∃ sorter, retrieveLineInfoLookup sorter rows pc frame =
      { writeLine row frame with column := ⟨row.column.toUInt32⟩ } := by
  obtain ⟨sorting, found⟩ := Sorting.exists_found pc _ ((nearest_iff pc rows row).mp nearest)
  classical
  let sorter : LineSorter := fun entries =>
    if same : entries = lineEntries rows then same ▸ sorting else Sorting.inserted LineEntry.low entries
  have chosen : (sorter (lineEntries rows)).sorted = sorting.sorted := by simp [sorter]
  refine ⟨sorter, ?_⟩
  rw [retrieveLineInfoLookup, chosen, found]

theorem retrieveLineInfoScan_eq (rows : List Row) (frame : StacktraceFrame) :
    retrieveLineInfoScan rows pc frame =
      answered (rows.foldl (scanStep pc) (none, none)).2 frame :=
  scanLines_eq pc rows none none frame

end

def SameSource (row other : Row) : Prop :=
  row.line.toUInt32 = other.line.toUInt32 ∧ row.file = other.file

/-- Two frames show the same line and file. -/
def SameLocation (frame other : StacktraceFrame) : Prop :=
  frame.line = other.line ∧ frame.filename = other.filename

/-- What a table needs for the two modes to agree about an address: its nearest rows have
one source, which is also that of a row below that answers last. -/
structure OneSource (pc : FramePtr) (rows : List Row) : Prop where
  nearest : ∀ row other, Nearest pc rows row → Nearest pc rows other → SameSource row other
  held : ∀ index held row, LastAnswer pc rows index held → held.address < pc → Nearest pc rows row →
    SameSource row held

/-- Both modes show the same line and file for a covered address, however the table is
sorted, exactly when its rows leave no choice. -/
theorem retrieveLineInfo_same_iff (table : LineTable) (pc : FramePtr) (covered : table.Covers pc)
    (frame : StacktraceFrame) :
    (∀ sorter, SameLocation (retrieveLineInfoLookup sorter table.rows pc frame)
      (retrieveLineInfoScan table.rows pc frame)) ↔ OneSource pc table.rows := by
  obtain ⟨index, answer, last, scanned⟩ := covered.exists_answer
  have shown : ∀ row, SameLocation { writeLine row frame with column := ⟨row.column.toUInt32⟩ }
      (retrieveLineInfoScan table.rows pc frame) ↔ SameSource row answer := by
    intro row
    rw [retrieveLineInfoScan_eq, scanned]
    simp [SameLocation, SameSource, answered, writeLine]
  -- any nearest row is found under some sort, so all of them have to agree with the answer
  have agree : (∀ sorter, SameLocation (retrieveLineInfoLookup sorter table.rows pc frame)
      (retrieveLineInfoScan table.rows pc frame)) ↔ ∀ row, Nearest pc table.rows row → SameSource row answer := by
    constructor
    · intro same row nearest
      obtain ⟨sorter, looked⟩ := exists_lookup row table.rows nearest frame
      have located := same sorter
      rw [looked] at located
      exact (shown row).mp located
    · intro same sorter
      obtain ⟨row, nearest, looked⟩ := retrieveLineInfoLookup_nearest covered sorter frame
      rw [looked]
      exact (shown row).mpr (same row nearest)
  rw [agree]
  constructor
  · intro same
    refine ⟨fun row other mine theirs => ?_, fun index' held row last' below nearest => ?_⟩
    · have first := same row mine
      have second := same other theirs
      exact ⟨first.1.trans second.1.symm, first.2.trans second.2.symm⟩
    · have again := (foldl_answer_iff pc table.rows held).mpr ⟨index', last'⟩
      obtain rfl := Option.some.inj (scanned.symm.trans again)
      exact same row nearest
  · rintro ⟨one, held⟩ row nearest
    obtain ⟨line, found, responds⟩ := last.answers
    rcases responds with ⟨here, rfl⟩ | ⟨-, holds⟩
    · exact one row answer nearest (last.nearest pc here)
    · obtain ⟨-, -, -, below, -⟩ := holds
      exact held index answer row last below nearest

/-- Three lines of one function, each of ten bytes. -/
def threeLines : LineTable where
  sequences := [{
    body := [⟨10, false, 1, 1, []⟩, ⟨20, false, 2, 1, []⟩, ⟨30, false, 3, 1, []⟩]
    last := ⟨40, true, 3, 1, []⟩
    opened := by decide
    closed := rfl
    ordered := by decide }]
  disjoint := by decide

theorem retrieveLineInfo_same_iff_at_line :
    (∀ sorter, SameLocation (retrieveLineInfoLookup sorter threeLines.rows 20 nullFrame)
      (retrieveLineInfoScan threeLines.rows 20 nullFrame)) ↔ OneSource 20 threeLines.rows :=
  retrieveLineInfo_same_iff threeLines 20 ⟨_, List.mem_singleton_self _, by decide⟩ nullFrame

/-- At the first address of line 2 the scan finds its row, and overwrites it with the row of
line 1 when it meets the rows above. -/
theorem retrieveLineInfo_same_fails :
    (retrieveLineInfoLookup (Sorting.inserted LineEntry.low) threeLines.rows 20 nullFrame).line = ⟨2⟩ ∧
    (retrieveLineInfoScan threeLines.rows 20 nullFrame).line = ⟨1⟩ := by
  decide

end Cpptrace.Dwarf
