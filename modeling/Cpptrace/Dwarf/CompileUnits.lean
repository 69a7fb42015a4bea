import Cpptrace.Dwarf.Die
import Cpptrace.Dwarf.RangeMap

/-! Which compilation unit covers an address.

When memory is prioritized the units are walked; otherwise a range map of all
units is built once and the unit it finds is checked. The address ranges section
and the skeletons of split units, which both modes treat alike, are left out.
-/

set_option autoImplicit false

namespace Cpptrace.Dwarf

open Cpptrace.Library

namespace CompileUnit

def ranges (cu : CompileUnit) : List Range := dwarfRanges cu cu.die

def contains (cu : CompileUnit) (pc : FramePtr) : Bool := pcInDie cu cu.die pc

end CompileUnit

def matchUnit (pc : FramePtr) (cu : CompileUnit) (info : Option CompileUnit) :
    Except Exception (Bool × Option CompileUnit) :=
  if cu.contains pc then return (false, some cu) else return (true, info)

/-- The `prioritize_memory` path of `lookup_cu`. -/
def lookupCuWalk (cus : List CompileUnit) (pc : FramePtr) : Except Exception (Option CompileUnit) :=
  walkCompilationUnits (matchUnit pc) cus none

/-- The callback of `lazy_generate_cu_cache`. -/
def cacheUnit (cu : CompileUnit) (cache : RangeMap CompileUnit) :
    Except Exception (Bool × RangeMap CompileUnit) := do
  let cache ← cache.addRanges cu (getRangelistEntries cu cu.die)
  return (true, cache)

def generateCuCache (sorter : RangeSorter) (cus : List CompileUnit) : Except Exception (RangeMap CompileUnit) := do
  let cache ← walkCompilationUnits cacheUnit cus .empty
  return cache.finalize sorter

/-- The path of `lookup_cu` through the cache. -/
def lookupCuCached (sorter : RangeSorter) (cus : List CompileUnit) (pc : FramePtr) :
    Except Exception (Option CompileUnit) := do
  let cache ← generateCuCache sorter cus
  match cache.lookup pc with
  | some cu => if cu.contains pc then return some cu else return none
  | none => return none

def cachedPairs (cus : List CompileUnit) : List (CompileUnit × List Range) :=
  cus.map fun cu => (cu, getRangelistEntries cu cu.die)

theorem walkCompilationUnits_cacheUnit (cus : List CompileUnit) (cache : RangeMap CompileUnit) :
    walkCompilationUnits cacheUnit cus cache = cache.addAll (cachedPairs cus) := by
  induction cus generalizing cache with
  | nil => rfl
  | cons cu rest ih =>
    rw [walkCompilationUnits_cons]
    simp only [cacheUnit, cachedPairs, List.map_cons, RangeMap.addAll]
    cases cache.addRanges cu (getRangelistEntries cu cu.die) with
    | error exception => rfl
    | ok next => exact ih next

theorem walkCompilationUnits_matchUnit (cus : List CompileUnit) (pc : FramePtr) (info : Option CompileUnit) :
    walkCompilationUnits (matchUnit pc) cus info =
      .ok ((cus.reverse.find? fun cu => cu.contains pc).or info) := by
  induction cus generalizing info with
  | nil => rfl
  | cons cu rest ih =>
    rw [walkCompilationUnits_cons, matchUnit]
    by_cases covers : cu.contains pc = true
    · rw [if_pos covers]
      simp [pure, Except.pure, bind, Except.bind, ih, List.find?_append, covers]
    · rw [if_neg covers]
      simp [pure, Except.pure, bind, Except.bind, ih, List.find?_append, covers]

theorem lookupCuWalk_eq (cus : List CompileUnit) (pc : FramePtr) :
    lookupCuWalk cus pc = .ok (cus.reverse.find? fun cu => cu.contains pc) := by
  rw [lookupCuWalk, walkCompilationUnits_matchUnit, Option.or_none]

/-- No two ranges of the units overlap, and none is empty. -/
def SeparateUnits (cus : List CompileUnit) : Prop :=
  Separate (cus.flatMap CompileUnit.ranges)

def FindsUnit (cus : List CompileUnit) (pc : FramePtr) (found : Option CompileUnit) : Prop :=
  ∀ cu, found = some cu ↔ cu ∈ cus ∧ cu.contains pc = true

section

variable {cus : List CompileUnit}

theorem SeparateUnits.ranges (separate : SeparateUnits cus) {cu : CompileUnit} (member : cu ∈ cus) :
    Separate cu.ranges where
  nonempty range within := separate.nonempty range (List.mem_flatMap.mpr ⟨cu, member, within⟩)
  disjoint := (List.pairwise_flatMap.mp separate.disjoint).1 cu member

theorem SeparateUnits.unique (separate : SeparateUnits cus) {cu other : CompileUnit} (member : cu ∈ cus)
    (listed : other ∈ cus) {pc : FramePtr} (inside : cu.contains pc = true)
    (within : other.contains pc = true) : cu = other := by
  obtain ⟨range, mine, covers⟩ := (pcInDie_iff ..).mp inside
  obtain ⟨range', theirs, covers'⟩ := (pcInDie_iff ..).mp within
  exact unique_of_disjoint CompileUnit.ranges separate.disjoint member listed mine theirs covers covers'

theorem lookupCuWalk_finds (separate : SeparateUnits cus) (pc : FramePtr) :
    ∃ found, lookupCuWalk cus pc = .ok found ∧ FindsUnit cus pc found := by
  refine ⟨_, lookupCuWalk_eq cus pc, fun cu => ⟨fun found => ?_, fun ⟨member, inside⟩ => ?_⟩⟩
  · exact ⟨List.mem_reverse.mp (List.mem_of_find?_eq_some found), by simpa using List.find?_some found⟩
  · cases found : cus.reverse.find? fun cu => cu.contains pc with
    | none => exact absurd inside (List.find?_eq_none.mp found cu (List.mem_reverse.mpr member))
    | some other =>
      have listed := List.mem_reverse.mp (List.mem_of_find?_eq_some found)
      rw [separate.unique member listed inside (by simpa using List.find?_some found)]

theorem mem_allStarts (low : FramePtr) (item : Option CompileUnit) :
    (low, item) ∈ RangeMap.allStarts (cachedPairs cus) ↔
      ∃ cu ∈ cus, item = some cu ∧ low ∈ runStarts cu.ranges := by
  simp only [RangeMap.allStarts, cachedPairs, List.mem_flatMap, List.mem_map, exists_exists_and_eq_and,
    getRangelistEntries, ← coalesce_lows, CompileUnit.ranges, Prod.mk.injEq]
  constructor
  · rintro ⟨cu, member, range, within, rfl, rfl⟩
    exact ⟨cu, member, rfl, range, within, rfl⟩
  · rintro ⟨cu, member, rfl, range, within, rfl⟩
    exact ⟨cu, member, range, within, rfl, rfl⟩

theorem SeparateUnits.contains_runStart (separate : SeparateUnits cus) {cu : CompileUnit} (member : cu ∈ cus)
    {low : FramePtr} (starts : low ∈ runStarts cu.ranges) : cu.contains low = true := by
  obtain ⟨range, within, rfl⟩ := mem_runStarts _ _ starts
  exact (pcInDie_iff ..).mpr ⟨range, within, ((separate.ranges member).nonempty range within).contains_low⟩

theorem SeparateUnits.contains_next (separate : SeparateUnits cus) {cu : CompileUnit} (member : cu ∈ cus)
    {range next : Range} (linked : [range, next] <:+: cu.ranges) : cu.contains next.low = true := by
  have mine : next ∈ cu.ranges := linked.subset (by simp)
  exact (pcInDie_iff ..).mpr ⟨next, mine, ((separate.ranges member).nonempty next mine).contains_low⟩

/-- No unit has a run that starts at a merged range: it would have to be the range's own. -/
theorem SeparateUnits.not_started (separate : SeparateUnits cus) {cu item : CompileUnit} (member : cu ∈ cus)
    (listed : item ∈ cus) {range next : Range} (linked : [range, next] <:+: cu.ranges)
    (merged : merges range.high next.low) : next.low ∉ runStarts item.ranges := by
  intro started
  have same := separate.unique member listed (separate.contains_next member linked)
    (separate.contains_runStart listed started)
  subst same
  exact (separate.ranges member).not_runStart linked merged started

/-- What the cache needs to be right about every address: there are handles for all
units with ranges, no run goes round the end of the address space, and no unit's
run starts in the one-byte gap between two merged ranges of another unit. -/
structure CoalescesSafely (cus : List CompileUnit) : Prop where
  fits : (cus.filter fun cu => !cu.ranges.isEmpty).length < RangeMap.itemLimit
  noWrap : ∀ cu ∈ cus, NoWrap cu.ranges
  unshadowed : ∀ cu ∈ cus, ∀ gap, IsGap cu.ranges gap →
    ∀ other ∈ cus, gap ∈ runStarts other.ranges → other = cu

theorem itemCount_cachedPairs (cus : List CompileUnit) :
    RangeMap.itemCount (cachedPairs cus) = (cus.filter fun cu => !cu.ranges.isEmpty).length := by
  have same : ∀ cu : CompileUnit, (getRangelistEntries cu cu.die).isEmpty = cu.ranges.isEmpty := fun cu => by
    rw [Bool.eq_iff_iff, List.isEmpty_iff, List.isEmpty_iff]
    exact coalesce_eq_nil_iff _
  simp [RangeMap.itemCount, cachedPairs, List.filter_map, Function.comp_def, same]

theorem generateCuCache_ok (fits : (cus.filter fun cu => !cu.ranges.isEmpty).length < RangeMap.itemLimit) :
    ∃ cache : RangeMap CompileUnit, cache.WellFormed ∧ cache.starts = RangeMap.allStarts (cachedPairs cus) ∧
      ∀ sorter, generateCuCache sorter cus = .ok (cache.finalize sorter) := by
  obtain ⟨cache, added, wellFormed, starts⟩ := RangeMap.addAll_ok .empty RangeMap.empty_wellFormed
    (cachedPairs cus) (by rw [itemCount_cachedPairs]; simpa [RangeMap.empty] using fits)
  refine ⟨cache, wellFormed, by simpa [RangeMap.starts, RangeMap.empty] using starts, fun sorter => ?_⟩
  simp [generateCuCache, walkCompilationUnits_cacheUnit, added, bind, Except.bind, pure, Except.pure]

theorem generateCuCache_error (full : ¬ (cus.filter fun cu => !cu.ranges.isEmpty).length < RangeMap.itemLimit)
    (sorter : RangeSorter) : ∃ exception, generateCuCache sorter cus = .error exception := by
  obtain ⟨exception, failed⟩ := RangeMap.addAll_error .empty RangeMap.empty_wellFormed
    (cachedPairs cus) (by rw [itemCount_cachedPairs]; simpa [RangeMap.empty] using full)
  refine ⟨exception, ?_⟩
  simp [generateCuCache, walkCompilationUnits_cacheUnit, failed, bind, Except.bind]

theorem lookupCuCached_eq {cache : RangeMap CompileUnit} (sorter : RangeSorter) (pc : FramePtr)
    (generated : generateCuCache sorter cus = .ok (cache.finalize sorter)) :
    lookupCuCached sorter cus pc = .ok (((cache.finalize sorter).lookup pc).filter fun cu => cu.contains pc) := by
  simp only [lookupCuCached, generated, bind, Except.bind]
  cases (cache.finalize sorter).lookup pc with
  | none => rfl
  | some cu =>
    by_cases covers : cu.contains pc = true <;> simp [covers, Option.filter, pure, Except.pure]

/-- A cache that coalesces safely answers with the unit that covers the address. -/
theorem lookupCuCached_finds (separate : SeparateUnits cus) (safe : CoalescesSafely cus) (sorter : RangeSorter)
    (pc : FramePtr) : ∃ found, lookupCuCached sorter cus pc = .ok found ∧ FindsUnit cus pc found := by
  obtain ⟨cache, wellFormed, starts, generated⟩ := generateCuCache_ok safe.fits
  refine ⟨_, lookupCuCached_eq sorter pc (generated sorter), fun cu => ?_⟩
  have located : ∀ item, (cache.finalize sorter).lookup pc = some item →
      ∃ low, Greatest Prod.fst pc cache.starts (low, some item) ∧ item ∈ cus ∧ low ∈ runStarts item.ranges := by
    intro item found
    obtain ⟨low, greatest⟩ := RangeMap.lookup_finalize_some sorter cache pc item found
    have member := greatest.member
    rw [starts, mem_allStarts] at member
    obtain ⟨cu, listed, same, started⟩ := member
    obtain rfl := Option.some.inj same
    exact ⟨low, greatest, listed, started⟩
  rw [Option.filter_eq_some_iff]
  constructor
  · rintro ⟨found, covers⟩
    obtain ⟨low, -, listed, -⟩ := located cu found
    exact ⟨listed, covers⟩
  · rintro ⟨member, covers⟩
    refine ⟨?_, covers⟩
    obtain ⟨range, mine, inside⟩ := (pcInDie_iff ..).mp covers
    obtain ⟨above, below⟩ := (range.contains_iff pc).mp inside
    obtain ⟨before, after, split⟩ := List.append_of_mem mine
    have unit : cu.ranges = before ++ range :: after := split
    obtain ⟨start, started, le, covered⟩ := exists_runStart before range after (unit ▸ safe.noWrap cu member)
      (unit ▸ (separate.ranges member).nonempty)
    rw [← unit] at started covered
    have listed : (start, some cu) ∈ cache.starts := by
      rw [starts, mem_allStarts]
      exact ⟨cu, member, rfl, started⟩
    cases found : (cache.finalize sorter).lookup pc with
    | none =>
      exact absurd (le_trans le above) (RangeMap.lookup_finalize_none sorter cache wellFormed pc found _ listed)
    | some item =>
      obtain ⟨low, greatest, there, itsStart⟩ := located item found
      have upper : start ≤ low := greatest.greatest _ listed (le_trans le above)
      -- the start found lies in the same run, in a range of the unit or in a gap of it
      rcases covered low upper (lt_of_le_of_lt greatest.le below) with ⟨other, own, holds⟩ | gap
      · have inUnit : cu.contains low = true := (pcInDie_iff ..).mpr ⟨other, own, holds⟩
        rw [separate.unique member there inUnit (separate.contains_runStart there itsStart)]
      · rw [safe.unshadowed cu member low gap item there itsStart]

def AnswersUnits (cache : RangeMap CompileUnit) (cus : List CompileUnit) : Prop :=
  ∀ sorter pc, ∀ cu ∈ cus, cu.contains pc = true → (cache.finalize sorter).lookup pc = some cu

theorem AnswersUnits.of_finds {cache : RangeMap CompileUnit}
    (generated : ∀ sorter, generateCuCache sorter cus = .ok (cache.finalize sorter))
    (finds : ∀ sorter pc, ∃ found, lookupCuCached sorter cus pc = .ok found ∧ FindsUnit cus pc found) :
    AnswersUnits cache cus := by
  intro sorter pc cu member covers
  obtain ⟨found, cached, unit⟩ := finds sorter pc
  rw [lookupCuCached_eq sorter pc (generated sorter), Except.ok.injEq] at cached
  have kept := (unit cu).mpr ⟨member, covers⟩
  rw [← cached, Option.filter_eq_some_iff] at kept
  exact kept.1

/-- A run that goes round starts again at 0, where only an entry of 0 could be found. -/
theorem AnswersUnits.noWrap {cache : RangeMap CompileUnit} (answers : AnswersUnits cache cus)
    (separate : SeparateUnits cus) (starts : cache.starts = RangeMap.allStarts (cachedPairs cus)) :
    ∀ cu ∈ cus, NoWrap cu.ranges := by
  rintro cu member range next linked ⟨wraps, zero⟩
  have found := answers (Sorting.inserted RangeEntry.low) next.low cu member
    (separate.contains_next member linked)
  obtain ⟨low, greatest⟩ := RangeMap.lookup_finalize_some _ cache next.low cu found
  have listed := greatest.member
  have low_eq : low = next.low := by
    have le := greatest.le
    rw [zero] at le ⊢
    dsimp only at le
    grind
  rw [starts, mem_allStarts] at listed
  obtain ⟨item, there, -, started⟩ := listed
  exact separate.not_started member there linked ((merges_iff ..).mpr (.inr (by rw [wraps, zero])))
    (low_eq ▸ started)

/-- The run of another unit that starts in a gap would hide the run that reaches over the gap. -/
theorem AnswersUnits.unshadowed {cache : RangeMap CompileUnit} (answers : AnswersUnits cache cus)
    (separate : SeparateUnits cus) (starts : cache.starts = RangeMap.allStarts (cachedPairs cus)) :
    ∀ cu ∈ cus, ∀ gap, IsGap cu.ranges gap → ∀ other ∈ cus, gap ∈ runStarts other.ranges → other = cu := by
  rintro cu member gap ⟨range, next, linked, rfl, above⟩ other listed started
  have merged : merges range.high next.low := (merges_iff ..).mpr (.inr above)
  have step : range.high < next.low := by
    have unwrapped := answers.noWrap separate starts cu member range next linked
    rw [above] at unwrapped ⊢
    grind
  have greatest : Greatest Prod.fst next.low cache.starts (range.high, some other) := by
    refine ⟨?_, le_of_lt step, ?_⟩
    · rw [starts, mem_allStarts]
      exact ⟨other, listed, rfl, started⟩
    · rintro ⟨low, item⟩ within le
      rw [starts, mem_allStarts] at within
      obtain ⟨unit, there, -, itsStart⟩ := within
      have differs : low ≠ next.low := by
        rintro rfl
        exact separate.not_started member there linked merged itsStart
      dsimp only at le ⊢
      rw [above] at le differs
      grind
  obtain ⟨sorter, found⟩ := RangeMap.exists_sorter cache next.low range.high other greatest
  have expected := answers sorter next.low cu member (separate.contains_next member linked)
  exact Option.some.inj (found.symm.trans expected)

theorem CoalescesSafely_of_finds (separate : SeparateUnits cus)
    (finds : ∀ sorter pc, ∃ found, lookupCuCached sorter cus pc = .ok found ∧ FindsUnit cus pc found) :
    CoalescesSafely cus := by
  -- a cache that runs out of handles throws
  have fits : (cus.filter fun cu => !cu.ranges.isEmpty).length < RangeMap.itemLimit := by
    by_contra full
    obtain ⟨exception, failed⟩ := generateCuCache_error full (Sorting.inserted RangeEntry.low)
    obtain ⟨found, cached, -⟩ := finds (Sorting.inserted RangeEntry.low) 0
    simp [lookupCuCached, failed, bind, Except.bind] at cached
  obtain ⟨cache, wellFormed, starts, generated⟩ := generateCuCache_ok fits
  have answers : AnswersUnits cache cus := .of_finds generated finds
  exact ⟨fits, answers.noWrap separate starts, answers.unshadowed separate starts⟩

/-- Both modes find the unit that covers an address, for every address and however the
cache is sorted, exactly when the ranges coalesce safely. -/
theorem lookupCu_finds_iff (cus : List CompileUnit) (separate : SeparateUnits cus) :
    (∀ sorter pc, ∃ found, lookupCuCached sorter cus pc = .ok found ∧ lookupCuWalk cus pc = .ok found ∧
      FindsUnit cus pc found) ↔ CoalescesSafely cus := by
  constructor
  · intro finds
    refine CoalescesSafely_of_finds separate fun sorter pc => ?_
    obtain ⟨found, cached, -, unit⟩ := finds sorter pc
    exact ⟨found, cached, unit⟩
  · intro safe sorter pc
    obtain ⟨found, cached, unit⟩ := lookupCuCached_finds separate safe sorter pc
    obtain ⟨other, walked, unit'⟩ := lookupCuWalk_finds separate pc
    have same : other = found := Option.ext fun cu => (unit' cu).trans (unit cu).symm
    exact ⟨found, cached, same ▸ walked, unit⟩

end

def unitAt (offset : Nat) (ranges : List Range) : CompileUnit :=
  ⟨.node offset .compileUnit ⟨none, none, some ⟨ranges.map fun range =>
    some ⟨.startEnd, false, range.low, range.high⟩, []⟩⟩ [], 5⟩

def splitUnit : CompileUnit := unitAt 1 [⟨300, 399⟩, ⟨400, 500⟩]

def byteUnit : CompileUnit := unitAt 2 [⟨399, 400⟩]

theorem lookupCu_finds_iff_at_split :
    (∀ sorter pc, ∃ found, lookupCuCached sorter [splitUnit, byteUnit] pc = .ok found ∧
      lookupCuWalk [splitUnit, byteUnit] pc = .ok found ∧ FindsUnit [splitUnit, byteUnit] pc found) ↔
    CoalescesSafely [splitUnit, byteUnit] :=
  lookupCu_finds_iff [splitUnit, byteUnit] ⟨by decide, by decide⟩

/-- In the second range of the split unit the cache finds the other unit, and gives up. -/
theorem lookupCu_finds_fails :
    lookupCuCached (Sorting.inserted RangeEntry.low) [splitUnit, byteUnit] 450 = .ok none ∧
    lookupCuWalk [splitUnit, byteUnit] 450 = .ok (some splitUnit) ∧ splitUnit.contains 450 = true := by
  exact ⟨rfl, rfl, rfl⟩

end Cpptrace.Dwarf
