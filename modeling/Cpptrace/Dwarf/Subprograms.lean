import Cpptrace.Dwarf.Die
import Cpptrace.Dwarf.RangeMap

/-! Which subprogram of a unit an address belongs to.

When memory is prioritized the tree of DIEs is walked towards the address;
otherwise the subprograms are listed in a range map, and the one found is
checked. The two descend into different DIEs.
-/

set_option autoImplicit false

namespace Cpptrace.Dwarf

open Cpptrace.Library

section

variable (cu : CompileUnit) (pc : FramePtr)

mutual

/-- `retrieve_symbol_walk` on a list of siblings: the subprogram whose symbol is used. -/
def retrieveSymbolWalk : List Die → Option Die
  | [] => none
  | die :: siblings => (retrieveSymbolVisit die).or (retrieveSymbolWalk siblings)

def retrieveSymbolVisit : Die → Option Die
  | .node offset tag attributes children =>
      if tag = .nameSpace ∨ pcInDie cu (.node offset tag attributes children) pc = true then
        if tag = .subprogram then some (.node offset tag attributes children)
        else retrieveSymbolWalk children
      else none

end

/-- The tags under which `preprocess_subprograms` looks for subprograms. -/
def Tag.isPreprocessed : Tag → Bool
  | .subprogram | .nameSpace | .structureType | .classType | .module | .importedModule | .compileUnit => true
  | _ => false

mutual

def preprocessSubprograms : List Die → RangeMap Die → Except Exception (RangeMap Die)
  | [], cache => pure cache
  | die :: siblings, cache => do
      let cache ← preprocessVisit die cache
      preprocessSubprograms siblings cache

/-- The callback of `preprocess_subprograms`. -/
def preprocessVisit : Die → RangeMap Die → Except Exception (RangeMap Die)
  | .node offset tag attributes children, cache =>
      let die := Die.node offset tag attributes children
      if tag = .subprogram then do
        let cache ← cache.addRanges die (getRangelistEntries cu die)
        preprocessSubprograms children cache
      else if tag.isPreprocessed then preprocessSubprograms children cache
      else pure cache

end

/-- `retrieve_symbol` through the cache: the subprogram whose symbol is used. -/
def retrieveSymbolCached (sorter : RangeSorter) : Except Exception (Option Die) := do
  let cache ← preprocessSubprograms cu [cu.die] .empty
  match (cache.finalize sorter).lookup pc with
  | some die => if pcInDie cu die pc then return some die else return none
  | none => return none

end

/-- The callback that `retrieve_symbol_walk` hands to `walk_die_list`, with the symbol
found so far: it stops the walk once there is one. -/
def retrieveSymbolCallback (cu : CompileUnit) (pc : FramePtr) (die : Die) (found : Option Die) :
    Except Exception (Bool × Option Die) :=
  match retrieveSymbolVisit cu pc die with
  | some target => pure (false, some target)
  | none => pure (true, found)

theorem retrieveSymbolWalk_eq_walkDieList (cu : CompileUnit) (pc : FramePtr) (first : Die) (siblings : List Die) :
    (walkDieList (retrieveSymbolCallback cu pc) first siblings none).map Prod.snd =
      .ok (retrieveSymbolWalk cu pc (first :: siblings)) := by
  have rest : ∀ dies, (walkSiblings (retrieveSymbolCallback cu pc) dies none).map Prod.snd =
      .ok (retrieveSymbolWalk cu pc dies) := by
    intro dies
    induction dies with
    | nil => rfl
    | cons die dies ih =>
      rw [walkSiblings, retrieveSymbolWalk, retrieveSymbolCallback]
      cases retrieveSymbolVisit cu pc die with
      | some target => rfl
      | none => exact ih
  rw [walkDieList, retrieveSymbolWalk, retrieveSymbolCallback]
  cases retrieveSymbolVisit cu pc first with
  | some target => rfl
  | none => exact rest siblings

mutual

def subprogramsIn : Die → List (List Die × Die)
  | .node offset tag attributes children =>
      (if tag = .subprogram then [([], .node offset tag attributes children)] else []) ++
        (subprogramsInList children).map fun found => (.node offset tag attributes children :: found.1, found.2)

def subprogramsInList : List Die → List (List Die × Die)
  | [] => []
  | die :: rest => subprogramsIn die ++ subprogramsInList rest

end

section

variable (cu : CompileUnit) (pc : FramePtr)

def Enters (die : Die) : Prop :=
  die.tag = .nameSpace ∨ pcInDie cu die pc = true

instance (die : Die) : Decidable (Enters cu pc die) := inferInstanceAs (Decidable (_ ∨ _))

def isReached (found : List Die × Die) : Bool :=
  found.1.all (fun die => Enters cu pc die) && pcInDie cu found.2 pc

theorem isReached_under (die : Die) (found : List Die × Die) :
    isReached cu pc (die :: found.1, found.2) = (decide (Enters cu pc die) && isReached cu pc found) := by
  simp only [isReached, List.all_cons, Bool.and_assoc]

mutual

theorem retrieveSymbolVisit_eq :
    ∀ die, retrieveSymbolVisit cu pc die = ((subprogramsIn die).find? (isReached cu pc)).map Prod.snd
  | .node offset tag attributes children => by
    have below := retrieveSymbolWalk_eq children
    rw [retrieveSymbolVisit, subprogramsIn]
    split
    next entered =>
      have enters : Enters cu pc (.node offset tag attributes children) := entered
      split
      -- a subprogram that covers the address ends the walk
      next subprogram =>
        subst subprogram
        have covers := entered.resolve_left (by decide)
        simp [isReached, covers]
      next other =>
        simp only [below, List.nil_append, List.find?_map, Function.comp_def, isReached_under, enters,
          decide_true, Bool.true_and, Option.map_map]
    next outside =>
      have misses : ¬ Enters cu pc (.node offset tag attributes children) := outside
      have uncovered : pcInDie cu (.node offset tag attributes children) pc = false := by
        simpa using (not_or.mp outside).2
      symm
      rw [Option.map_eq_none_iff, List.find?_eq_none]
      intro found member
      rcases List.mem_append.mp member with own | nested
      · split at own
        · rw [List.mem_singleton.mp own]
          simp [isReached, uncovered]
        · cases own
      · obtain ⟨inner, -, rfl⟩ := List.mem_map.mp nested
        simp [isReached_under, misses]

theorem retrieveSymbolWalk_eq :
    ∀ dies, retrieveSymbolWalk cu pc dies = ((subprogramsInList dies).find? (isReached cu pc)).map Prod.snd
  | [] => rfl
  | die :: rest => by
    rw [retrieveSymbolWalk, subprogramsInList, List.find?_append, retrieveSymbolVisit_eq die,
      retrieveSymbolWalk_eq rest]
    cases (subprogramsIn die).find? (isReached cu pc) <;> rfl

end

def isListed (found : List Die × Die) : Bool :=
  found.1.all fun die => die.tag.isPreprocessed

def listedPairs (found : List (List Die × Die)) : List (Die × List Range) :=
  (found.filter isListed).map fun found => (found.2, getRangelistEntries cu found.2)

theorem listedPairs_append (found others : List (List Die × Die)) :
    listedPairs cu (found ++ others) = listedPairs cu found ++ listedPairs cu others := by
  simp [listedPairs]

theorem listedPairs_under (offset : Nat) (tag : Tag) (attributes : RangeAttributes) (children : List Die)
    (found : List (List Die × Die)) :
    listedPairs cu (found.map fun inner => (.node offset tag attributes children :: inner.1, inner.2)) =
      if tag.isPreprocessed then listedPairs cu found else [] := by
  have under : ∀ inner : List Die × Die, isListed (.node offset tag attributes children :: inner.1, inner.2) =
      (tag.isPreprocessed && isListed inner) := fun _ => rfl
  split
  next descended => simp [listedPairs, List.filter_map, Function.comp_def, under, descended]
  next closed => simp [listedPairs, List.filter_map, Function.comp_def, under, closed]

mutual

theorem preprocessVisit_eq :
    ∀ die cache, preprocessVisit cu die cache = cache.addAll (listedPairs cu (subprogramsIn die))
  | .node offset tag attributes children, cache => by
    have below := preprocessSubprograms_eq children
    rw [preprocessVisit, subprogramsIn, listedPairs_append, listedPairs_under]
    simp only [below]
    split
    next subprogram =>
      subst subprogram
      rw [if_pos (show Tag.subprogram.isPreprocessed = true from rfl), RangeMap.addAll_append]
      simp only [listedPairs, isListed, List.filter_cons, List.filter_nil, List.all_nil, if_true, List.map_cons,
        List.map_nil, RangeMap.addAll]
      cases cache.addRanges (.node offset .subprogram attributes children)
        (getRangelistEntries cu (.node offset .subprogram attributes children)) <;> rfl
    next other =>
      split
      · rfl
      · rfl

theorem preprocessSubprograms_eq :
    ∀ dies cache, preprocessSubprograms cu dies cache = cache.addAll (listedPairs cu (subprogramsInList dies))
  | [], cache => rfl
  | die :: rest, cache => by
    rw [preprocessSubprograms, subprogramsInList, listedPairs_append, RangeMap.addAll_append,
      preprocessVisit_eq die cache]
    simp only [preprocessSubprograms_eq rest]

end

def subprogramRanges : List Range :=
  (subprogramsIn cu.die).flatMap fun found => dwarfRanges cu found.2

theorem subprogram_unique (disjoint : (subprogramRanges cu).Pairwise Range.Disjoint)
    {found other : List Die × Die} (member : found ∈ subprogramsIn cu.die) (listed : other ∈ subprogramsIn cu.die)
    (covers : pcInDie cu found.2 pc = true) (within : pcInDie cu other.2 pc = true) : found = other := by
  obtain ⟨range, mine, inside⟩ := (pcInDie_iff ..).mp covers
  obtain ⟨range', theirs, inside'⟩ := (pcInDie_iff ..).mp within
  exact unique_of_disjoint (fun found : List Die × Die => dwarfRanges cu found.2) disjoint member listed
    mine theirs inside inside'

def ListedSubprogram (die : Die) : Prop :=
  ∃ enclosing, (enclosing, die) ∈ subprogramsIn cu.die ∧
    ∀ around ∈ enclosing, around.tag.isPreprocessed = true

/-- No listed subprogram has a run that starts behind the last run of this one, up to the address. -/
def StartsLast (die : Die) : Prop :=
  ListedSubprogram cu die ∧ ∃ start ∈ runStarts (dwarfRanges cu die), start ≤ pc ∧
    ∀ other, ListedSubprogram cu other → ∀ later ∈ runStarts (dwarfRanges cu other), later ≤ pc → later ≤ start

/-- The walk enters all DIEs around a subprogram. -/
def Reached (enclosing : List Die) : Prop :=
  ∀ around ∈ enclosing, Enters cu pc around

/-- What the two modes need to agree about an address: there are handles for all listed
subprograms with ranges, and when a subprogram covers the address, the walk gets to it
exactly when it is the one whose run starts last up to the address. -/
structure ModesAgree : Prop where
  fits : ((subprogramsIn cu.die).filter fun found =>
    isListed found && !(dwarfRanges cu found.2).isEmpty).length < RangeMap.itemLimit
  reached : ∀ enclosing subprogram, (enclosing, subprogram) ∈ subprogramsIn cu.die →
    pcInDie cu subprogram pc = true → Reached cu pc enclosing →
    StartsLast cu pc subprogram ∧ ∀ other, StartsLast cu pc other → other = subprogram
  missed : ∀ enclosing subprogram, (enclosing, subprogram) ∈ subprogramsIn cu.die →
    pcInDie cu subprogram pc = true → ¬ Reached cu pc enclosing → ¬ StartsLast cu pc subprogram

theorem itemCount_listedPairs (found : List (List Die × Die)) :
    RangeMap.itemCount (listedPairs cu found) =
      (found.filter fun found => isListed found && !(dwarfRanges cu found.2).isEmpty).length := by
  have same : ∀ die, (getRangelistEntries cu die).isEmpty = (dwarfRanges cu die).isEmpty := fun die => by
    rw [Bool.eq_iff_iff, List.isEmpty_iff, List.isEmpty_iff]
    exact coalesce_eq_nil_iff _
  simp [RangeMap.itemCount, listedPairs, List.filter_map, Function.comp_def, same, List.filter_filter,
    Bool.and_comm]

theorem mem_listedStarts (low : FramePtr) (item : Option Die) :
    (low, item) ∈ RangeMap.allStarts (listedPairs cu (subprogramsIn cu.die)) ↔
      ∃ die, item = some die ∧ ListedSubprogram cu die ∧ low ∈ runStarts (dwarfRanges cu die) := by
  simp only [RangeMap.allStarts, listedPairs, List.mem_flatMap, List.mem_map, List.mem_filter,
    getRangelistEntries, ← coalesce_lows, ListedSubprogram, isListed, List.all_eq_true]
  constructor
  · rintro ⟨-, ⟨⟨enclosing, die⟩, ⟨member, open_⟩, rfl⟩, range, within, same⟩
    obtain ⟨rfl, rfl⟩ := Prod.mk.inj same
    exact ⟨die, rfl, ⟨enclosing, member, open_⟩, range, within, rfl⟩
  · rintro ⟨die, rfl, ⟨enclosing, member, open_⟩, range, within, rfl⟩
    exact ⟨_, ⟨⟨enclosing, die⟩, ⟨member, open_⟩, rfl⟩, range, within, rfl⟩

theorem startsLast_iff (die : Die) :
    StartsLast cu pc die ↔ ∃ start,
      Greatest Prod.fst pc (RangeMap.allStarts (listedPairs cu (subprogramsIn cu.die))) (start, some die) := by
  constructor
  · rintro ⟨listed, start, mine, le, last⟩
    refine ⟨start, (mem_listedStarts ..).mpr ⟨die, rfl, listed, mine⟩, le, ?_⟩
    rintro ⟨later, item⟩ member le'
    obtain ⟨other, -, listed', started⟩ := (mem_listedStarts ..).mp member
    exact last other listed' later started le'
  · rintro ⟨start, member, le, last⟩
    obtain ⟨other, same, listed, mine⟩ := (mem_listedStarts ..).mp member
    obtain rfl := Option.some.inj same
    refine ⟨listed, start, mine, le, fun other listed' later started le' => ?_⟩
    exact last (later, some other) ((mem_listedStarts ..).mpr ⟨other, rfl, listed', started⟩) le'

theorem retrieveSymbolCached_ok
    (fits : ((subprogramsIn cu.die).filter fun found =>
      isListed found && !(dwarfRanges cu found.2).isEmpty).length < RangeMap.itemLimit) :
    ∃ cache : RangeMap Die, cache.WellFormed ∧
      cache.starts = RangeMap.allStarts (listedPairs cu (subprogramsIn cu.die)) ∧
      ∀ sorter pc, retrieveSymbolCached cu pc sorter =
        .ok (((cache.finalize sorter).lookup pc).filter fun die => pcInDie cu die pc) := by
  obtain ⟨cache, added, wellFormed, starts⟩ := RangeMap.addAll_ok .empty RangeMap.empty_wellFormed
    (listedPairs cu (subprogramsIn cu.die)) (by rw [itemCount_listedPairs]; simpa [RangeMap.empty] using fits)
  refine ⟨cache, wellFormed, by simpa [RangeMap.starts, RangeMap.empty] using starts, fun sorter pc => ?_⟩
  have listed : preprocessSubprograms cu [cu.die] .empty = .ok cache := by
    rw [preprocessSubprograms_eq, subprogramsInList, subprogramsInList, List.append_nil, added]
  simp only [retrieveSymbolCached, listed, bind, Except.bind]
  cases (cache.finalize sorter).lookup pc with
  | none => rfl
  | some die =>
    by_cases covers : pcInDie cu die pc = true <;> simp [covers, Option.filter, pure, Except.pure]

theorem retrieveSymbolCached_error
    (full : ¬ ((subprogramsIn cu.die).filter fun found =>
      isListed found && !(dwarfRanges cu found.2).isEmpty).length < RangeMap.itemLimit)
    (sorter : RangeSorter) : ∃ exception, retrieveSymbolCached cu pc sorter = .error exception := by
  obtain ⟨exception, failed⟩ := RangeMap.addAll_error .empty RangeMap.empty_wellFormed
    (listedPairs cu (subprogramsIn cu.die)) (by rw [itemCount_listedPairs]; simpa [RangeMap.empty] using full)
  refine ⟨exception, ?_⟩
  have listed : preprocessSubprograms cu [cu.die] .empty = .error exception := by
    rw [preprocessSubprograms_eq, subprogramsInList, subprogramsInList, List.append_nil, failed]
  simp [retrieveSymbolCached, listed, bind, Except.bind]

/-- The walk finds the subprogram that covers the address, when it gets to it. -/
theorem retrieveSymbolWalk_unit (disjoint : (subprogramRanges cu).Pairwise Range.Disjoint) (die : Die) :
    retrieveSymbolWalk cu pc [cu.die] = some die ↔
      ∃ enclosing, (enclosing, die) ∈ subprogramsIn cu.die ∧ pcInDie cu die pc = true ∧ Reached cu pc enclosing := by
  have reached_iff : ∀ found : List Die × Die, isReached cu pc found = true ↔
      pcInDie cu found.2 pc = true ∧ Reached cu pc found.1 := by
    intro found
    simp [isReached, Reached, and_comm]
  rw [retrieveSymbolWalk_eq, subprogramsInList, subprogramsInList, List.append_nil, Option.map_eq_some_iff]
  constructor
  · rintro ⟨⟨enclosing, subprogram⟩, found, rfl⟩
    exact ⟨enclosing, List.mem_of_find?_eq_some found, (reached_iff _).mp (List.find?_some found)⟩
  · rintro ⟨enclosing, member, covers, enters⟩
    cases found : (subprogramsIn cu.die).find? (isReached cu pc) with
    | none =>
      have missed := List.find?_eq_none.mp found _ member
      exact absurd ((reached_iff (enclosing, die)).mpr ⟨covers, enters⟩) missed
    | some other =>
      have there := (reached_iff other).mp (List.find?_some found)
      -- the walk takes the first subprogram it reaches; no other covers the address
      have same := subprogram_unique cu pc disjoint (List.mem_of_find?_eq_some found) member there.1 covers
      exact ⟨other, rfl, by rw [same]⟩

theorem cached_of_lookup {cache : RangeMap Die} {sorter : RangeSorter} {die : Die}
    (found : (cache.finalize sorter).lookup pc = some die) (covers : pcInDie cu die pc = true) :
    ((cache.finalize sorter).lookup pc).filter (fun die => pcInDie cu die pc) = some die :=
  Option.filter_eq_some_iff.mpr ⟨found, covers⟩

theorem modesAgree_of_eq (disjoint : (subprogramRanges cu).Pairwise Range.Disjoint)
    (same : ∀ sorter, retrieveSymbolCached cu pc sorter = .ok (retrieveSymbolWalk cu pc [cu.die])) :
    ModesAgree cu pc := by
  have fits : ((subprogramsIn cu.die).filter fun found =>
      isListed found && !(dwarfRanges cu found.2).isEmpty).length < RangeMap.itemLimit := by
    by_contra full
    obtain ⟨exception, failed⟩ := retrieveSymbolCached_error cu pc full (Sorting.inserted RangeEntry.low)
    rw [same] at failed
    cases failed
  obtain ⟨cache, wellFormed, starts, cached⟩ := retrieveSymbolCached_ok cu fits
  have answer : ∀ sorter, ((cache.finalize sorter).lookup pc).filter (fun die => pcInDie cu die pc) =
      retrieveSymbolWalk cu pc [cu.die] := fun sorter =>
    Except.ok.inj ((cached sorter pc).symm.trans (same sorter))
  -- of the subprograms that start last, each is found under some sort
  have sorted : ∀ die, StartsLast cu pc die → ∃ sorter, (cache.finalize sorter).lookup pc = some die := by
    intro die last
    obtain ⟨start, greatest⟩ := (startsLast_iff cu pc die).mp last
    exact RangeMap.exists_sorter cache pc start die (starts ▸ greatest)
  refine ⟨fits, fun enclosing subprogram member covers enters => ?_,
    fun enclosing subprogram member covers blocked last => ?_⟩
  · have walked := (retrieveSymbolWalk_unit cu pc disjoint subprogram).mpr ⟨enclosing, member, covers, enters⟩
    constructor
    · have kept := answer (Sorting.inserted RangeEntry.low)
      rw [walked, Option.filter_eq_some_iff] at kept
      obtain ⟨start, greatest⟩ := RangeMap.lookup_finalize_some _ cache pc subprogram kept.1
      exact (startsLast_iff cu pc subprogram).mpr ⟨start, starts ▸ greatest⟩
    · intro other last
      obtain ⟨sorter, found⟩ := sorted other last
      have kept := answer sorter
      rw [walked, Option.filter_eq_some_iff, found] at kept
      exact Option.some.inj kept.1
  · obtain ⟨sorter, found⟩ := sorted subprogram last
    have walked := (answer sorter).symm.trans (cached_of_lookup cu pc found covers)
    obtain ⟨around, there, covers', enters⟩ := (retrieveSymbolWalk_unit cu pc disjoint subprogram).mp walked
    obtain ⟨rfl, -⟩ := Prod.mk.inj (subprogram_unique cu pc disjoint there member covers' covers)
    exact blocked enters

theorem eq_of_modesAgree (disjoint : (subprogramRanges cu).Pairwise Range.Disjoint) (agree : ModesAgree cu pc)
    (sorter : RangeSorter) : retrieveSymbolCached cu pc sorter = .ok (retrieveSymbolWalk cu pc [cu.die]) := by
  obtain ⟨cache, wellFormed, starts, cached⟩ := retrieveSymbolCached_ok cu agree.fits
  have last : ∀ die, (cache.finalize sorter).lookup pc = some die → StartsLast cu pc die := by
    intro die found
    obtain ⟨start, greatest⟩ := RangeMap.lookup_finalize_some sorter cache pc die found
    exact (startsLast_iff cu pc die).mpr ⟨start, starts ▸ greatest⟩
  rw [cached sorter pc, Except.ok.injEq]
  refine Option.ext fun die => ?_
  rw [retrieveSymbolWalk_unit cu pc disjoint die, Option.filter_eq_some_iff]
  constructor
  · rintro ⟨found, covers⟩
    obtain ⟨enclosing, member, -⟩ := (last die found).1
    refine ⟨enclosing, member, covers, ?_⟩
    by_contra blocked
    exact agree.missed enclosing die member covers blocked (last die found)
  · rintro ⟨enclosing, member, covers, enters⟩
    obtain ⟨own, only⟩ := agree.reached enclosing die member covers enters
    refine ⟨?_, covers⟩
    cases found : (cache.finalize sorter).lookup pc with
    | none =>
      obtain ⟨start, greatest⟩ := (startsLast_iff cu pc die).mp own
      exact absurd greatest.le (RangeMap.lookup_finalize_none sorter cache wellFormed pc found _
        (starts ▸ greatest.member))
    | some other => rw [only other (last other found)]

/-- Both modes use the same subprogram for an address, however the cache is sorted,
exactly when they agree about what lies around it. -/
theorem retrieveSymbol_same_iff (disjoint : (subprogramRanges cu).Pairwise Range.Disjoint) :
    (∀ sorter, retrieveSymbolCached cu pc sorter = .ok (retrieveSymbolWalk cu pc [cu.die])) ↔ ModesAgree cu pc :=
  ⟨modesAgree_of_eq cu pc disjoint, eq_of_modesAgree cu pc disjoint⟩

end

def dieAt (offset : Nat) (tag : Tag) (low high : FramePtr) (children : List Die) : Die :=
  .node offset tag ⟨some low, some ⟨high, .address⟩, none⟩ children

/-- A lambda that is emitted apart from the function it is nested in. -/
def lambdaUnit : CompileUnit :=
  ⟨dieAt 1 .compileUnit 100 400 [dieAt 2 .subprogram 100 200 [dieAt 3 .subprogram 300 400 []]], 5⟩

theorem retrieveSymbol_same_iff_at_lambda :
    (∀ sorter, retrieveSymbolCached lambdaUnit 350 sorter =
      .ok (retrieveSymbolWalk lambdaUnit 350 [lambdaUnit.die])) ↔ ModesAgree lambdaUnit 350 :=
  retrieveSymbol_same_iff lambdaUnit 350 (by decide)

/-- The cache finds the lambda; the walk does not look into the function around it. -/
theorem retrieveSymbol_same_fails :
    retrieveSymbolCached lambdaUnit 350 (Sorting.inserted RangeEntry.low) =
      .ok (some (dieAt 3 .subprogram 300 400 [])) ∧
    retrieveSymbolWalk lambdaUnit 350 [lambdaUnit.die] = none ∧ pcInDie lambdaUnit lambdaUnit.die 350 = true := by
  exact ⟨rfl, rfl, rfl⟩

end Cpptrace.Dwarf
