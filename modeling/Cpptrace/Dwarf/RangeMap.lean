import Cpptrace.Dwarf.Ranges
import Cpptrace.Library.SortedLookup

/-! `range_map`: items under the ranges they cover.

Entries are sorted by their low end when the map is finalized. A lookup takes
the last entry that starts at or below the key and does not look at its high end.
-/

set_option autoImplicit false

namespace Cpptrace.Dwarf

open Cpptrace.Library

structure RangeEntry where
  item : UInt32
  low : FramePtr
  high : FramePtr
  deriving DecidableEq, Repr

structure RangeMap (V : Type) where
  items : List V
  rangeEntries : List RangeEntry
  deriving Repr

abbrev RangeSorter := (entries : List RangeEntry) → Sorting RangeEntry.low entries

namespace RangeMap

variable {V : Type}

def empty : RangeMap V := ⟨[], []⟩

def itemLimit : Nat := 0xFFFFFFFF

def addItem (map : RangeMap V) (item : V) : Except Exception (UInt32 × RangeMap V) := do
  let items := map.items ++ [item]
  assertImpl (items.length < itemLimit) .verify "items.size() < std::numeric_limits<std::uint32_t>::max()" none
  return (UInt32.ofNat (items.length - 1), { map with items })

def insert (map : RangeMap V) (handle : UInt32) (low high : FramePtr) : RangeMap V :=
  { map with rangeEntries := map.rangeEntries ++ [⟨handle, low, high⟩] }

def finalize (sorter : RangeSorter) (map : RangeMap V) : RangeMap V :=
  { map with rangeEntries := (sorter map.rangeEntries).sorted }

def lookup (map : RangeMap V) (key : FramePtr) : Option V :=
  (firstLessThanOrEqual RangeEntry.low key map.rangeEntries).bind fun entry => map.items[entry.item.toNat]?

def addRanges (map : RangeMap V) (item : V) (ranges : List Range) : Except Exception (RangeMap V) :=
  if ranges.isEmpty then pure map
  else do
    let (handle, map) ← map.addItem item
    return ranges.foldl (fun map range => map.insert handle range.low range.high) map

def addAll : RangeMap V → List (V × List Range) → Except Exception (RangeMap V)
  | map, [] => pure map
  | map, (item, ranges) :: rest => do
      let map ← map.addRanges item ranges
      addAll map rest

def starts (map : RangeMap V) : List (FramePtr × Option V) :=
  map.rangeEntries.map fun entry => (entry.low, map.items[entry.item.toNat]?)

structure WellFormed (map : RangeMap V) : Prop where
  inBounds : ∀ entry ∈ map.rangeEntries, entry.item.toNat < map.items.length
  limited : map.items.length < itemLimit

theorem empty_wellFormed : (empty : RangeMap V).WellFormed :=
  ⟨fun _ member => absurd member List.not_mem_nil, Nat.zero_lt_succ _⟩

theorem foldl_insert (map : RangeMap V) (handle : UInt32) (ranges : List Range) :
    ranges.foldl (fun map range => map.insert handle range.low range.high) map =
      ⟨map.items, map.rangeEntries ++ ranges.map fun range => ⟨handle, range.low, range.high⟩⟩ := by
  induction ranges generalizing map with
  | nil => simp
  | cons range rest ih =>
    rw [List.foldl_cons, ih]
    simp [insert]

structure Extends (map : RangeMap V) (item : V) (ranges : List Range) (next : RangeMap V) : Prop where
  wellFormed : next.WellFormed
  starts : next.starts = map.starts ++ ranges.map fun range => (range.low, some item)
  length : next.items.length = map.items.length + if ranges = [] then 0 else 1

theorem addRanges_ok (map : RangeMap V) (wellFormed : map.WellFormed) (item : V) (ranges : List Range)
    (room : ranges = [] ∨ map.items.length + 1 < itemLimit) :
    ∃ next, map.addRanges item ranges = .ok next ∧ map.Extends item ranges next := by
  by_cases none : ranges = []
  · subst none
    exact ⟨map, rfl, wellFormed, by simp, by simp⟩
  · have room := room.resolve_left none
    -- the handle is the number of items before: below the limit it is exact in 32 bits
    have handle : (UInt32.ofNat map.items.length).toNat = map.items.length := by
      have := UInt32.toNat_ofNat_of_lt' (n := map.items.length) (by
        simp only [itemLimit] at room
        simp only [UInt32.size]
        omega)
      exact this
    refine ⟨⟨map.items ++ [item], map.rangeEntries ++ ranges.map fun range =>
      ⟨UInt32.ofNat map.items.length, range.low, range.high⟩⟩, ?_, ⟨?_, ?_⟩, ?_, ?_⟩
    · simp [addRanges, none, addItem, assertImpl, room, foldl_insert, bind, Except.bind, pure, Except.pure]
    · intro entry member
      rw [List.length_append, List.length_singleton]
      rcases List.mem_append.mp member with old | new
      · exact Nat.lt_succ_of_lt (wellFormed.inBounds entry old)
      · obtain ⟨range, -, rfl⟩ := List.mem_map.mp new
        rw [handle]
        exact Nat.lt_succ_self _
    · simpa using room
    · simp only [RangeMap.starts, List.map_append, List.map_map]
      congr 1
      · refine List.map_congr_left fun entry member => ?_
        rw [List.getElem?_append_left (wellFormed.inBounds entry member)]
      · refine List.map_congr_left fun range _ => ?_
        simp only [Function.comp_apply]
        rw [handle, List.getElem?_concat_length]
    · simp [none]

theorem addRanges_error (map : RangeMap V) (item : V) (ranges : List Range) (some : ranges ≠ [])
    (full : ¬ map.items.length + 1 < itemLimit) : ∃ exception, map.addRanges item ranges = .error exception := by
  refine ⟨.internalError .verify "items.size() < std::numeric_limits<std::uint32_t>::max()" none, ?_⟩
  simp only [addRanges, List.isEmpty_iff, some, if_false, addItem, assertImpl, List.length_append,
    List.length_singleton, full, decide_false, Bool.false_eq_true, bind, Except.bind]
  rfl

def itemCount (pairs : List (V × List Range)) : Nat :=
  (pairs.filter fun pair => !pair.2.isEmpty).length

def allStarts (pairs : List (V × List Range)) : List (FramePtr × Option V) :=
  pairs.flatMap fun pair => pair.2.map fun range => (range.low, some pair.1)

theorem itemCount_cons (pair : V × List Range) (rest : List (V × List Range)) :
    itemCount (pair :: rest) = (if pair.2 = [] then 0 else 1) + itemCount rest := by
  simp only [itemCount, List.filter_cons]
  by_cases none : pair.2 = []
  · simp [none]
  · simp [none, Nat.add_comm]

theorem addAll_append (map : RangeMap V) (pairs rest : List (V × List Range)) :
    map.addAll (pairs ++ rest) = map.addAll pairs >>= fun map => map.addAll rest := by
  induction pairs generalizing map with
  | nil => rfl
  | cons pair pairs ih =>
    obtain ⟨item, ranges⟩ := pair
    simp only [List.cons_append, addAll]
    cases map.addRanges item ranges with
    | error exception => rfl
    | ok next => exact ih next

theorem addAll_ok (map : RangeMap V) (wellFormed : map.WellFormed) (pairs : List (V × List Range))
    (room : map.items.length + itemCount pairs < itemLimit) :
    ∃ next, map.addAll pairs = .ok next ∧ next.WellFormed ∧ next.starts = map.starts ++ allStarts pairs := by
  induction pairs generalizing map with
  | nil => exact ⟨map, rfl, wellFormed, by simp [allStarts]⟩
  | cons pair rest ih =>
    obtain ⟨item, ranges⟩ := pair
    rw [itemCount_cons] at room
    have fits : ranges = [] ∨ map.items.length + 1 < itemLimit := by
      by_cases none : ranges = []
      · exact .inl none
      · exact .inr (by simp only [none, if_false] at room; omega)
    obtain ⟨middle, added, extended⟩ := addRanges_ok map wellFormed item ranges fits
    have length := extended.length
    obtain ⟨next, done, wellFormed', listed⟩ := ih middle extended.wellFormed (by
      rw [length]
      dsimp only at room
      omega)
    refine ⟨next, ?_, wellFormed', ?_⟩
    · simp only [addAll, added]
      exact done
    · rw [listed, extended.starts]
      simp [allStarts]

theorem addAll_error (map : RangeMap V) (wellFormed : map.WellFormed) (pairs : List (V × List Range))
    (full : ¬ map.items.length + itemCount pairs < itemLimit) :
    ∃ exception, map.addAll pairs = .error exception := by
  induction pairs generalizing map with
  | nil => exact absurd wellFormed.limited (by simpa [itemCount] using full)
  | cons pair rest ih =>
    obtain ⟨item, ranges⟩ := pair
    rw [itemCount_cons] at full
    by_cases fits : ranges = [] ∨ map.items.length + 1 < itemLimit
    · obtain ⟨middle, added, extended⟩ := addRanges_ok map wellFormed item ranges fits
      have length := extended.length
      obtain ⟨exception, failed⟩ := ih middle extended.wellFormed (by
        rw [length]
        dsimp only at full
        omega)
      refine ⟨exception, ?_⟩
      simp only [addAll, added]
      exact failed
    · rw [not_or] at fits
      obtain ⟨exception, failed⟩ := addRanges_error map item ranges fits.1 fits.2
      refine ⟨exception, ?_⟩
      simp only [addAll, failed]
      rfl

theorem lookup_finalize_some (sorter : RangeSorter) (map : RangeMap V) (key : FramePtr) (item : V)
    (found : (map.finalize sorter).lookup key = some item) :
    ∃ low, Greatest Prod.fst key map.starts (low, some item) := by
  obtain ⟨entry, located, looked⟩ := Option.bind_eq_some_iff.mp found
  have greatest := (sorter map.rangeEntries).found_greatest key entry located
  refine ⟨entry.low, List.mem_map.mpr ⟨entry, greatest.member, by rw [← looked]; rfl⟩, greatest.le, ?_⟩
  intro start member le
  obtain ⟨other, within, rfl⟩ := List.mem_map.mp member
  exact greatest.greatest other within le

theorem lookup_finalize_none (sorter : RangeSorter) (map : RangeMap V) (wellFormed : map.WellFormed)
    (key : FramePtr) (missing : (map.finalize sorter).lookup key = none) :
    ∀ start ∈ map.starts, ¬ start.1 ≤ key := by
  intro start member
  obtain ⟨other, within, rfl⟩ := List.mem_map.mp member
  refine ((sorter map.rangeEntries).found_none_iff key).mp ?_ other within
  cases located : firstLessThanOrEqual RangeEntry.low key (sorter map.rangeEntries).sorted with
  | none => rfl
  | some entry =>
    have greatest := (sorter map.rangeEntries).found_greatest key entry located
    have bound := wellFormed.inBounds entry greatest.member
    simp [lookup, finalize, located, List.getElem?_eq_getElem bound] at missing

/-- Any item with the greatest start up to a key is what some sort makes a lookup find. -/
theorem exists_sorter (map : RangeMap V) (key low : FramePtr) (item : V)
    (greatest : Greatest Prod.fst key map.starts (low, some item)) :
    ∃ sorter : RangeSorter, (map.finalize sorter).lookup key = some item := by
  obtain ⟨entry, within, same⟩ := List.mem_map.mp greatest.member
  obtain ⟨rfl, looked⟩ := Prod.mk.inj same
  have isGreatest : Greatest RangeEntry.low key map.rangeEntries entry :=
    ⟨within, greatest.le, fun other member le =>
      greatest.greatest _ (List.mem_map.mpr ⟨other, member, rfl⟩) le⟩
  obtain ⟨sorting, located⟩ := Sorting.exists_found key entry isGreatest
  -- a sort is a choice for each list; only the one for this list matters
  classical
  let sorter : RangeSorter := fun entries =>
    if same : entries = map.rangeEntries then same ▸ sorting else Sorting.inserted RangeEntry.low entries
  have chosen : (sorter map.rangeEntries).sorted = sorting.sorted := by simp [sorter]
  refine ⟨sorter, ?_⟩
  rw [lookup, finalize, chosen, located]
  exact looked

end RangeMap

end Cpptrace.Dwarf
