import Cpptrace.Dwarf.Inlines
import Cpptrace.Dwarf.LineTable
import Cpptrace.Utils.LruCache

/-! The line tables that a resolver keeps.

Tables are kept by the offset of their unit, as many as the bound allows, and an
entry keeps what was read of its row. Whether a table has entries depends on the
cache mode at the time it was loaded, whether they are searched on the mode of
the query.
-/

set_option autoImplicit false

namespace Cpptrace.Dwarf

open Cpptrace.Library Cpptrace.Utils

structure LineProgram where
  version : Nat
  rows : List Row
  deriving Repr

/-- What `dwarf_srclines_b` gives for a unit: a table count, and the table if there is one. -/
structure Srclines where
  tableCount : Nat
  program : Option LineProgram
  deriving Repr

/-- `line_entry` -/
structure CachedLine where
  low : FramePtr
  line : Row
  path : Option Text
  lineNumber : Option UInt32
  columnNumber : Option UInt32
  deriving DecidableEq, Repr

namespace CachedLine

def ofEntry (entry : LineEntry) : CachedLine := ⟨entry.low, entry.line, none, none, none⟩

def readNumber (entry : CachedLine) : UInt32 := entry.lineNumber.getD entry.line.line.toUInt32

def readColumn (entry : CachedLine) : UInt32 := entry.columnNumber.getD entry.line.column.toUInt32

def readPath (entry : CachedLine) : Text := entry.path.getD entry.line.file

def completed (entry : CachedLine) : CachedLine :=
  { entry with
    path := some entry.readPath
    lineNumber := some entry.readNumber
    columnNumber := some entry.readColumn }

def write (entry : CachedLine) (frame : StacktraceFrame) : StacktraceFrame :=
  { frame with line := ⟨entry.readNumber⟩, column := ⟨entry.readColumn⟩, filename := entry.readPath }

end CachedLine

/-- `line_table_info`; a line context gives its rows. -/
structure LineTableInfo where
  version : Nat
  lineContext : List Row
  lineEntries : List CachedLine
  deriving Repr

/-- The position of the entry before `std::upper_bound` of an address. -/
def lineIndex (pc : FramePtr) (entries : List CachedLine) : Option Nat :=
  match (entries.takeWhile fun entry => entry.low ≤ pc).length with
  | 0 => none
  | index + 1 => some index

section Resolving

variable (sorter : LineSorter) (srclines : Nat → Except Exception Srclines)

def LineProgram.lineEntries (program : LineProgram) (mode : CacheMode) : List CachedLine :=
  if mode = .prioritizeSpeed then (sorter (Dwarf.lineEntries program.rows)).sorted.map .ofEntry else []

/-- The part of `get_line_table` for a table that is not kept. -/
def loadLineTable (mode : CacheMode) (offset : Nat) : Except Exception (Option LineTableInfo) := do
  let table ← srclines offset
  -- the count is looked at before the test whether there is a table
  assertImpl (table.tableCount ≤ 2) .verify "table_count <= 2, \"Unknown dwarf line table count\""
    (some "Unknown dwarf line table count")
  return table.program.map fun program => ⟨program.version, program.rows, program.lineEntries sorter mode⟩

def getLineTable (mode : CacheMode) (offset : Nat) : Cache Nat LineTableInfo (Option LineTableInfo) := do
  match ← LruCache.maybeGet offset with
  | some info => return some info
  | none =>
      match ← MonadExcept.ofExcept ((loadLineTable sorter srclines mode offset).mapError .exception) with
      | none => return none
      | some info => LruCache.insert offset info

def writeFront (info : LineTableInfo) : Cache Nat LineTableInfo Unit := do
  match (← get).lru.head? with
  | none => throw .undefined
  | some front => modify (LruCache.writeValue front.address info)

def retrieveLineInfo (mode : CacheMode) (offset : Nat) (pc : FramePtr) (frame : StacktraceFrame) :
    Cache Nat LineTableInfo StacktraceFrame := do
  match ← getLineTable sorter srclines mode offset with
  | none => return frame
  | some info =>
      if mode = .prioritizeSpeed then
        match (lineIndex pc info.lineEntries).bind fun index => info.lineEntries[index]? with
        | none => return frame
        | some entry =>
            let index := (lineIndex pc info.lineEntries).getD 0
            -- what is filled in for the entry goes into the table that is kept
            writeFront { info with lineEntries := info.lineEntries.set index entry.completed }
            return entry.write frame
      else return retrieveLineInfoScan info.lineContext pc frame

end Resolving

structure LineQuery where
  mode : CacheMode
  offset : Nat
  pc : FramePtr
  frame : StacktraceFrame

section Specification

variable (sorter : LineSorter) (srclines : Nat → Except Exception Srclines)

def lineAnswer (query : LineQuery) (built : Bool) (rows : List Row) : StacktraceFrame :=
  if query.mode = .prioritizeSpeed then
    if built then retrieveLineInfoLookup sorter rows query.pc query.frame else query.frame
  else retrieveLineInfoScan rows query.pc query.frame

def usableProgram (offset : Nat) : Except Exception (Option LineProgram) := do
  let table ← srclines offset
  assertImpl (table.tableCount ≤ 2) .verify "table_count <= 2, \"Unknown dwarf line table count\""
    (some "Unknown dwarf line table count")
  return table.program

/-- The answer of a resolver that keeps no table. -/
def lineAnswerAlone (query : LineQuery) : Except CacheFailure StacktraceFrame :=
  match usableProgram srclines query.offset with
  | .error exception => .error (.exception exception)
  | .ok none => .ok query.frame
  | .ok (some program) => .ok (lineAnswer sorter query true program.rows)

/-- The units whose tables are kept, most recent use first, with whether the table has entries. -/
def lineSpec (query : LineQuery) (tables : RecencyMap Nat Bool) :
    Except CacheFailure StacktraceFrame × RecencyMap Nat Bool :=
  match usableProgram srclines query.offset with
  | .error exception => (.error (.exception exception), tables)
  | .ok none => (.ok query.frame, tables)
  | .ok (some program) =>
      if query.offset ∈ tables.cached then
        (.ok (lineAnswer sorter query ((tables.stored query.offset).getD false) program.rows), tables.use query.offset)
      else
        (.ok (lineAnswer sorter query true program.rows), tables.store query.offset (query.mode = .prioritizeSpeed))

def lineStep (query : LineQuery) (tables : LruCache Nat LineTableInfo) :
    Except CacheFailure StacktraceFrame × LruCache Nat LineTableInfo :=
  retrieveLineInfo sorter srclines query.mode query.offset query.pc query.frame tables

end Specification

section Entries

structure CachedLine.Reads (cached : CachedLine) (entry : LineEntry) : Prop where
  low : cached.low = entry.low
  line : cached.line = entry.line
  path : cached.readPath = entry.line.file
  number : cached.readNumber = entry.line.line.toUInt32
  column : cached.readColumn = entry.line.column.toUInt32

theorem CachedLine.reads_ofEntry (entry : LineEntry) : (CachedLine.ofEntry entry).Reads entry :=
  ⟨rfl, rfl, rfl, rfl, rfl⟩

theorem CachedLine.Reads.completed {cached : CachedLine} {entry : LineEntry} (reads : cached.Reads entry) :
    cached.completed.Reads entry :=
  ⟨reads.low, reads.line, reads.path, reads.number, reads.column⟩

/-- The search by position is the search for the last entry that starts at or below the address. -/
theorem getElem?_lineIndex (pc : FramePtr) (entries : List CachedLine) :
    ((lineIndex pc entries).bind fun index => entries[index]?) = firstLessThanOrEqual CachedLine.low pc entries := by
  have front := List.takeWhile_prefix (fun entry : CachedLine => decide (entry.low ≤ pc)) (l := entries)
  rw [lineIndex, firstLessThanOrEqual, List.getLast?_eq_getElem?]
  cases size : (entries.takeWhile fun entry => decide (entry.low ≤ pc)).length with
  | zero => simp [List.length_eq_zero_iff.mp size]
  | succ index =>
    obtain ⟨behind, split⟩ := front
    conv_lhs => rw [← split]
    rw [Option.bind_some, Nat.add_sub_cancel, List.getElem?_append_left (by omega)]

theorem takeWhile_reads {cached : List CachedLine} {entries : List LineEntry} (pc : FramePtr)
    (reads : List.Forall₂ CachedLine.Reads cached entries) :
    List.Forall₂ CachedLine.Reads (cached.takeWhile fun entry => entry.low ≤ pc)
      (entries.takeWhile fun entry => entry.low ≤ pc) := by
  induction reads with
  | nil => exact .nil
  | @cons kept entry rest others first _ ih =>
    rw [List.takeWhile_cons, List.takeWhile_cons, first.low]
    split
    · exact .cons first ih
    · exact .nil

/-- A search among kept entries finds what is kept of the entry that the search in the table finds. -/
theorem firstLessThanOrEqual_reads {cached : List CachedLine} {entries : List LineEntry} (pc : FramePtr)
    (reads : List.Forall₂ CachedLine.Reads cached entries) :
    Option.Rel CachedLine.Reads (firstLessThanOrEqual CachedLine.low pc cached)
      (firstLessThanOrEqual LineEntry.low pc entries) := by
  have fronts := takeWhile_reads pc reads
  rw [firstLessThanOrEqual, firstLessThanOrEqual]
  generalize (cached.takeWhile fun entry => decide (entry.low ≤ pc)) = front at fronts
  generalize (entries.takeWhile fun entry => decide (entry.low ≤ pc)) = others at fronts
  induction fronts with
  | nil => exact .none
  | cons first rest ih =>
    cases rest with
    | nil => exact .some first
    | cons second later =>
      rw [List.getLast?_cons_cons, List.getLast?_cons_cons]
      exact ih

theorem forall₂_set {cached : List CachedLine} {entries : List LineEntry}
    (reads : List.Forall₂ CachedLine.Reads cached entries) (index : Nat) {kept : CachedLine}
    (found : cached[index]? = some kept) : List.Forall₂ CachedLine.Reads (cached.set index kept.completed) entries := by
  induction reads generalizing index with
  | nil => exact .nil
  | @cons head entry rest others first later ih =>
    cases index with
    | zero =>
      rw [List.getElem?_cons_zero, Option.some.injEq] at found
      subst found
      exact .cons first.completed later
    | succ index => exact .cons first (ih index found)

end Entries

section Keeping

variable (sorter : LineSorter) (srclines : Nat → Except Exception Srclines)

def TableOf (offset : Nat) (info : LineTableInfo) (built : Bool) : Prop :=
  ∃ program, usableProgram srclines offset = .ok (some program) ∧ info.version = program.version ∧
    info.lineContext = program.rows ∧
    List.Forall₂ CachedLine.Reads info.lineEntries
      (if built then (sorter (lineEntries program.rows)).sorted else [])

/-- A cache that keeps the tables of these units, in the order of their last use. -/
def Keeps (cache : LruCache Nat LineTableInfo) (tables : RecencyMap Nat Bool) : Prop :=
  ∃ map, LruCache.Represents cache map ∧ map.Related (TableOf sorter srclines) tables

def tablesWith (mode : CacheMode) (offset : Nat) (tables : RecencyMap Nat Bool) : RecencyMap Nat Bool :=
  if offset ∈ tables.cached then tables.use offset else tables.store offset (mode = .prioritizeSpeed)

variable {sorter srclines} {cache : LruCache Nat LineTableInfo} {tables : RecencyMap Nat Bool} {offset : Nat}

theorem loadLineTable_eq (mode : CacheMode) (offset : Nat) :
    loadLineTable sorter srclines mode offset =
      (usableProgram srclines offset).map fun found =>
        found.map fun program => ⟨program.version, program.rows, program.lineEntries sorter mode⟩ := by
  rw [loadLineTable, usableProgram]
  cases srclines offset with
  | error exception => rfl
  | ok table =>
    simp only [bind, Except.bind]
    generalize assertImpl _ _ _ _ = checked
    cases checked <;> rfl

theorem reads_lineEntries (program : LineProgram) (mode : CacheMode) :
    List.Forall₂ CachedLine.Reads (program.lineEntries sorter mode)
      (if decide (mode = .prioritizeSpeed) then (sorter (lineEntries program.rows)).sorted else []) := by
  simp only [LineProgram.lineEntries, decide_eq_true_eq]
  split
  · rw [List.forall₂_map_left_iff, List.forall₂_same]
    exact fun entry _ => CachedLine.reads_ofEntry entry
  · exact .nil

theorem Keeps.exists_program (keeps : Keeps sorter srclines cache tables) (member : offset ∈ tables.cached) :
    ∃ node ∈ cache.lru, ∃ built, node.key = offset ∧ tables.stored offset = some built ∧
      TableOf sorter srclines offset node.value built := by
  obtain ⟨map, represents, alike⟩ := keeps
  rw [← alike.cached] at member
  obtain ⟨node, within, rfl, -⟩ := represents.exists_node member
  obtain ⟨built, known, table⟩ := alike.of_stored (represents.values node within)
  exact ⟨node, within, built, rfl, known, table⟩

/-- A table that is kept is found, and the unit is the one used last. -/
theorem Keeps.getLineTable_kept (keeps : Keeps sorter srclines cache tables) (mode : CacheMode)
    (member : offset ∈ tables.cached) :
    ∃ node rest next, getLineTable sorter srclines mode offset cache = (.ok (some node.value), next) ∧
      next.lru = node :: rest ∧ node.key = offset ∧ Keeps sorter srclines next (tablesWith mode offset tables) := by
  obtain ⟨map, represents, alike⟩ := keeps
  have cached : offset ∈ map.cached := alike.cached ▸ member
  obtain ⟨node, within, rfl, found⟩ := represents.exists_node cached
  have spliced := represents.coherent.splice within
  have followed := spliced.follow (List.mem_cons_self : node ∈ (LruCache.splice node cache).lru)
  refine ⟨node, _, LruCache.splice node cache, ?_, rfl, rfl, map.use node.key, represents.splice within, ?_⟩
  · simp only [getLineTable, LruCache.maybeGet, Command.bind_apply, Command.get_apply, found,
      LruCache.touch_eq represents.coherent within, Command.ofExcept_apply, followed, Command.pure_apply]
  · rw [tablesWith, if_pos member]
    exact alike.use node.key

theorem Keeps.getLineTable_absent (keeps : Keeps sorter srclines cache tables) (mode : CacheMode)
    (absent : offset ∉ tables.cached) :
    getLineTable sorter srclines mode offset cache =
      match loadLineTable sorter srclines mode offset with
      | .error exception => (.error (.exception exception), cache)
      | .ok none => (.ok none, cache)
      | .ok (some info) => LruCache.insert offset info cache := by
  obtain ⟨map, represents, alike⟩ := keeps
  have missing := represents.lookup_notMem (alike.cached ▸ absent)
  simp only [getLineTable, LruCache.maybeGet, Command.bind_apply, Command.get_apply, missing, Command.pure_apply,
    Command.ofExcept_apply]
  cases loadLineTable sorter srclines mode offset with
  | error exception => rfl
  | ok found => cases found <;> rfl

theorem Keeps.getLineTable_loaded (keeps : Keeps sorter srclines cache tables) (mode : CacheMode)
    (absent : offset ∉ tables.cached) {program : LineProgram}
    (usable : usableProgram srclines offset = .ok (some program)) :
    ∃ node rest next, getLineTable sorter srclines mode offset cache = (.ok (some node.value), next) ∧
      next.lru = node :: rest ∧ node.key = offset ∧ Keeps sorter srclines next (tablesWith mode offset tables) := by
  have loads := keeps.getLineTable_absent mode absent
  rw [loadLineTable_eq, usable] at loads
  obtain ⟨map, represents, alike⟩ := keeps
  let info : LineTableInfo := ⟨program.version, program.rows, program.lineEntries sorter mode⟩
  have new : offset ∉ map.cached := alike.cached ▸ absent
  obtain ⟨represented, front⟩ := represents.insert new info
  obtain ⟨node, head, value⟩ := Option.map_eq_some_iff.mp front
  obtain ⟨rest, listed⟩ := List.head?_eq_some_iff.mp head
  have table : TableOf sorter srclines offset info (decide (mode = .prioritizeSpeed)) :=
    ⟨program, usable, rfl, rfl, reads_lineEntries program mode⟩
  refine ⟨node, rest, _, ?_, listed, ?_, map.store offset info, represented, ?_⟩
  · rw [value, loads]
    exact represents.insert_new new info
  · have keys := represented.keys
    rw [listed, map.cached_store_notMem offset info new] at keys
    obtain ⟨room, positive⟩ := Nat.exists_eq_add_one_of_ne_zero (Nat.ne_of_gt (clamp_succ_pos map.bound map.held))
    rw [positive, List.take_succ_cons, List.map_cons] at keys
    exact (List.cons.inj keys).1
  · rw [tablesWith, if_neg absent]
    exact alike.store table

/-- From a resolver's tables, the table of a unit is the one that libdwarf gives for it. -/
theorem Keeps.getLineTable (keeps : Keeps sorter srclines cache tables) (mode : CacheMode) (offset : Nat) :
    match usableProgram srclines offset with
    | .error exception => Dwarf.getLineTable sorter srclines mode offset cache = (.error (.exception exception), cache)
    | .ok none => Dwarf.getLineTable sorter srclines mode offset cache = (.ok none, cache)
    | .ok (some _) => ∃ node rest next,
        Dwarf.getLineTable sorter srclines mode offset cache = (.ok (some node.value), next) ∧
          next.lru = node :: rest ∧ node.key = offset ∧ Keeps sorter srclines next (tablesWith mode offset tables) := by
  by_cases member : offset ∈ tables.cached
  · obtain ⟨_, _, _, _, _, program, usable, -⟩ := keeps.exists_program member
    rw [usable]
    exact keeps.getLineTable_kept mode member
  · have loads := keeps.getLineTable_absent mode member
    rw [loadLineTable_eq] at loads
    cases usable : usableProgram srclines offset with
    | error exception =>
      rw [usable] at loads
      exact loads
    | ok found =>
      cases found with
      | none =>
        rw [usable] at loads
        exact loads
      | some program => exact keeps.getLineTable_loaded mode member usable

theorem Keeps.front (keeps : Keeps sorter srclines cache tables) {node : Kvp Nat LineTableInfo}
    {rest : List (Kvp Nat LineTableInfo)} (front : cache.lru = node :: rest) :
    ∃ built, tables.stored node.key = some built ∧ TableOf sorter srclines node.key node.value built := by
  obtain ⟨map, represents, alike⟩ := keeps
  exact alike.of_stored (represents.values node (front ▸ List.mem_cons_self))

/-- A write to the table at the front that leaves it the table of its unit. -/
theorem Keeps.writeFront (keeps : Keeps sorter srclines cache tables) {node : Kvp Nat LineTableInfo}
    {rest : List (Kvp Nat LineTableInfo)} (front : cache.lru = node :: rest) {info : LineTableInfo} {built : Bool}
    (known : tables.stored node.key = some built) (table : TableOf sorter srclines node.key info built) :
    (Dwarf.writeFront info cache).1 = .ok () ∧ Keeps sorter srclines (Dwarf.writeFront info cache).2 tables := by
  obtain ⟨map, represents, alike⟩ := keeps
  have written : Dwarf.writeFront info cache = (.ok (), LruCache.writeValue node.address info cache) := by
    simp only [Dwarf.writeFront, Command.bind_apply, Command.get_apply, front, List.head?_cons, Command.modify_apply]
  have cached : map.cached = node.key :: rest.map Kvp.key := by
    rw [← represents.keys, front, List.map_cons]
  have represented := represents.writeValue (front ▸ List.mem_cons_self : node ∈ cache.lru) info
  rw [represents.splice_front front] at represented
  rw [written]
  exact ⟨rfl, _, represented, alike.store_front cached known table⟩

end Keeping

section Running

variable {sorter : LineSorter} {srclines : Nat → Except Exception Srclines}
  {cache : LruCache Nat LineTableInfo} {tables : RecencyMap Nat Bool}

theorem TableOf.answer {info : LineTableInfo} {built : Bool} (query : LineQuery)
    (table : TableOf sorter srclines query.offset info built) {program : LineProgram}
    (usable : usableProgram srclines query.offset = .ok (some program)) :
    lineAnswer sorter query built program.rows =
      if query.mode = .prioritizeSpeed then
        match (lineIndex query.pc info.lineEntries).bind fun index => info.lineEntries[index]? with
        | none => query.frame
        | some entry => entry.write query.frame
      else retrieveLineInfoScan info.lineContext query.pc query.frame := by
  obtain ⟨program', usable', -, rows, reads⟩ := table
  rw [usable', Except.ok.injEq, Option.some.injEq] at usable
  subst usable
  rw [lineAnswer, rows]
  split
  · rw [getElem?_lineIndex]
    cases built with
    | false =>
      rw [if_neg Bool.false_ne_true, List.forall₂_nil_right_iff] at reads
      rw [reads]
      rfl
    | true =>
      rw [if_pos rfl] at reads
      rw [if_pos rfl, retrieveLineInfoLookup]
      -- what is kept for an entry reads as the entry does, completed or not
      have found := firstLessThanOrEqual_reads query.pc reads
      generalize firstLessThanOrEqual CachedLine.low query.pc info.lineEntries = cached at found ⊢
      generalize firstLessThanOrEqual LineEntry.low query.pc _ = entry at found ⊢
      cases found with
      | none => rfl
      | some kept => simp only [CachedLine.write, writeLine, kept.path, kept.number, kept.column]
  · rfl

theorem lineSpec_of_usable (query : LineQuery) (tables : RecencyMap Nat Bool) {program : LineProgram}
    (usable : usableProgram srclines query.offset = .ok (some program)) {built : Bool}
    (known : (tablesWith query.mode query.offset tables).stored query.offset = some built) :
    lineSpec sorter srclines query tables =
      (.ok (lineAnswer sorter query built program.rows), tablesWith query.mode query.offset tables) := by
  rw [lineSpec, usable]
  dsimp only
  by_cases member : query.offset ∈ tables.cached
  · rw [tablesWith, if_pos member] at known ⊢
    have stored : tables.stored query.offset = some built := known
    rw [if_pos member, stored, Option.getD_some]
  · rw [tablesWith, if_neg member] at known ⊢
    have mode : some (decide (query.mode = .prioritizeSpeed)) = some built := by
      rw [← known]
      simp only [RecencyMap.store, Function.update_self]
    rw [if_neg member]
    -- a table that was just loaded is searched only if it was built
    by_cases speed : query.mode = .prioritizeSpeed
    · rw [← Option.some.inj mode, decide_eq_true speed]
    · rw [lineAnswer, lineAnswer, if_neg speed, if_neg speed]

/-- Each query answers as the machine does that only knows how the kept tables were loaded. -/
theorem lineStep_simulates (query : LineQuery) (cache : LruCache Nat LineTableInfo) (tables : RecencyMap Nat Bool)
    (keeps : Keeps sorter srclines cache tables) :
    (lineStep sorter srclines query cache).1 = (lineSpec sorter srclines query tables).1 ∧
      Keeps sorter srclines (lineStep sorter srclines query cache).2 (lineSpec sorter srclines query tables).2 := by
  have ran := keeps.getLineTable query.mode query.offset
  cases usable : usableProgram srclines query.offset with
  | error exception =>
    rw [usable] at ran
    simp only [lineStep, retrieveLineInfo, Command.bind_apply, ran, lineSpec, usable]
    exact ⟨trivial, keeps⟩
  | ok found =>
    cases found with
    | none =>
      rw [usable] at ran
      simp only [lineStep, retrieveLineInfo, Command.bind_apply, ran, lineSpec, usable, Command.pure_apply]
      exact ⟨trivial, keeps⟩
    | some program =>
      rw [usable] at ran
      obtain ⟨node, rest, next, got, front, key, kept⟩ := ran
      -- from here on the table is at the front of the cache
      obtain ⟨built, known, table⟩ := kept.front front
      have knownFront := known
      rw [key] at known table
      have answer := table.answer query usable
      rw [lineSpec_of_usable query tables usable known]
      simp only [lineStep, retrieveLineInfo, Command.bind_apply, got, Command.ite_apply]
      by_cases speed : query.mode = .prioritizeSpeed
      · rw [if_pos speed] at answer ⊢
        cases position : lineIndex query.pc node.value.lineEntries with
        | none =>
          rw [position] at answer
          exact ⟨congrArg Except.ok answer.symm, kept⟩
        | some index =>
          rw [position, Option.bind_some] at answer
          rw [Option.bind_some]
          cases entry : node.value.lineEntries[index]? with
          | none =>
            rw [entry] at answer
            exact ⟨congrArg Except.ok answer.symm, kept⟩
          | some cached =>
            rw [entry] at answer
            -- the entry that was found is completed in place, which keeps what it answers
            obtain ⟨program', usable', version, rows, reads⟩ := table
            have completed : TableOf sorter srclines query.offset { node.value with
                lineEntries := node.value.lineEntries.set index cached.completed } built :=
              ⟨program', usable', version, rows, forall₂_set reads index entry⟩
            rw [← key] at completed
            have written := kept.writeFront front knownFront completed
            simp only [Command.bind_apply, Option.getD_some, written.1, Command.pure_apply]
            exact ⟨congrArg Except.ok answer.symm, written.2⟩
      · rw [if_neg speed] at answer ⊢
        exact ⟨congrArg Except.ok answer.symm, kept⟩

end Running

section Results

variable (sorter : LineSorter) (srclines : Nat → Except Exception Srclines)

/-- A search of a table that is kept without entries, where the search of its entries would find a row. -/
def Stale (query : LineQuery) (tables : RecencyMap Nat Bool) : Prop :=
  query.mode = .prioritizeSpeed ∧ query.offset ∈ tables.cached ∧ tables.stored query.offset ≠ some true ∧
    ∃ program, usableProgram srclines query.offset = .ok (some program) ∧
      retrieveLineInfoLookup sorter program.rows query.pc query.frame ≠ query.frame

theorem lineSpec_alone_iff (query : LineQuery) (tables : RecencyMap Nat Bool) :
    (lineSpec sorter srclines query tables).1 = lineAnswerAlone sorter srclines query ↔
      ¬ Stale sorter srclines query tables := by
  rw [lineSpec, Stale, lineAnswerAlone]
  cases usableProgram srclines query.offset with
  | error exception => simp
  | ok found =>
    cases found with
    | none => simp
    | some program =>
      by_cases member : query.offset ∈ tables.cached
      · by_cases built : tables.stored query.offset = some true
        · simp [member, built]
        · have unbuilt : (tables.stored query.offset).getD false = false := by
            cases stored : tables.stored query.offset with
            | none => rfl
            | some value => simpa [stored] using built
          by_cases speed : query.mode = .prioritizeSpeed
          · simp [member, built, unbuilt, lineAnswer, speed, eq_comm]
          · simp [member, speed, lineAnswer]
      · simp [member]

def answersOf (bound : Option ℕ+) (queries : List LineQuery) : List (Except CacheFailure StacktraceFrame) :=
  (run (lineStep sorter srclines) queries ⟨[], ∅, bound.map (↑), 0⟩).1

theorem keeps_empty (bound : Option ℕ+) :
    Keeps sorter srclines ⟨[], ∅, bound.map (↑), 0⟩ (RecencyMap.empty bound) :=
  ⟨RecencyMap.empty bound, ⟨⟨List.nodup_nil, List.nodup_nil, by simp, by simp⟩, rfl, by simp, rfl⟩,
    RecencyMap.related_empty bound⟩

theorem spec_answers_iff (queries : List LineQuery) (tables : RecencyMap Nat Bool) :
    (run (lineSpec sorter srclines) queries tables).1 = queries.map (lineAnswerAlone sorter srclines) ↔
      EveryStep (lineSpec sorter srclines) (fun query tables => ¬ Stale sorter srclines query tables) queries
        tables := by
  induction queries generalizing tables with
  | nil => simp [run, EveryStep]
  | cons query rest ih =>
    rw [run, List.map_cons, List.cons_eq_cons, EveryStep, lineSpec_alone_iff, ih]

/-- A resolver answers each query as one does that keeps no tables, whatever the bound pushes out, exactly
if speed is never prioritized for a table that is kept from another mode and whose entries would have had a
row for the query. -/
theorem lineTables_transparent_iff (bound : Option ℕ+) (queries : List LineQuery) :
    answersOf sorter srclines bound queries = queries.map (lineAnswerAlone sorter srclines) ↔
      EveryStep (lineSpec sorter srclines) (fun query tables => ¬ Stale sorter srclines query tables) queries
        (RecencyMap.empty bound) := by
  rw [answersOf, (run_refines lineStep_simulates queries _ _ (keeps_empty sorter srclines bound)).1]
  exact spec_answers_iff sorter srclines queries _

end Results

end Cpptrace.Dwarf
