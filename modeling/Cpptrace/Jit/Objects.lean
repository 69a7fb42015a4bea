import Cpptrace.Dwarf.Ranges
import Cpptrace.Library.Machine
import Cpptrace.Library.SortedLookup

/-! The registry of JIT objects.

An object on the heap has an address, which no other object shares. To follow the
pointer of a range entry whose object is gone is undefined.
-/

set_option autoImplicit false

namespace Cpptrace.Jit

open Library

structure JitObject where
  pcRanges : Except Exception (List Dwarf.Range)
  nonempty : ∀ ranges, pcRanges = .ok ranges → ∀ range ∈ ranges, range.Nonempty

structure HeapObject where
  address : Nat
  file : JitObject

structure ObjectEntry where
  objectStart : FramePtr
  object : HeapObject

structure RangeEntry where
  low : FramePtr
  high : FramePtr
  objectStart : FramePtr
  object : Nat
  deriving DecidableEq, Repr

/-- `nextAddress` is where the next object will be made. -/
structure JitObjectManager where
  objects : List ObjectEntry
  rangeList : List RangeEntry
  nextAddress : Nat

structure JitObjectLookupResult where
  object : HeapObject
  base : FramePtr

inductive LookupFailure where
  | exception (thrown : Exception)
  | undefined
  deriving DecidableEq, Repr

namespace JitObjectManager

def empty : JitObjectManager := ⟨[], [], 0⟩

/-- Objects without readable ranges are kept; nothing is left of an image that does not open. -/
def addJitObject (objectStart : FramePtr) (image : Except Exception JitObject)
    (manager : JitObjectManager) : JitObjectManager :=
  match image with
  | .error _ => manager
  | .ok file =>
      let address := manager.nextAddress
      let owned := { manager with
        objects := manager.objects ++ [⟨objectStart, ⟨address, file⟩⟩]
        nextAddress := address + 1 }
      match file.pcRanges with
      -- the object was stored before its ranges were asked for
      | .error _ => owned
      | .ok ranges => { owned with
          rangeList := ranges.foldl (fun rangeList range =>
            insertUpper RangeEntry.low rangeList ⟨range.low, range.high, objectStart, address⟩) owned.rangeList }

def removeJitObject (ptr : FramePtr) (manager : JitObjectManager) : JitObjectManager :=
  { manager with
    objects := manager.objects.filter (·.objectStart ≠ ptr)
    rangeList := manager.rangeList.filter (·.objectStart ≠ ptr) }

def clearAllJitObjects (manager : JitObjectManager) : JitObjectManager :=
  { manager with objects := [], rangeList := [] }

def dereference (address : Nat) (manager : JitObjectManager) : Except LookupFailure HeapObject :=
  match manager.objects.find? (·.object.address = address) with
  | none => throw .undefined
  | some entry => pure entry.object

def lookup (pc : FramePtr) (manager : JitObjectManager) : Except LookupFailure (Option JitObjectLookupResult) := do
  match firstLessThanOrEqual RangeEntry.low pc manager.rangeList with
  | none => return none
  | some entry =>
    if pc < entry.low then throw (.exception (.internalError .assert "pc >= it->low" none))
    if pc < entry.high then
      let object ← dereference entry.object manager
      return some ⟨object, entry.low⟩
    else return none

end JitObjectManager

inductive Operation where
  | register (ptr : FramePtr) (image : Except Exception JitObject)
  | unregister (ptr : FramePtr)
  | clearAll

open JitObjectManager

def step : Operation → JitObjectManager → Unit × JitObjectManager
  | .register ptr image, manager => ((), addJitObject ptr image manager)
  | .unregister ptr, manager => ((), removeJitObject ptr manager)
  | .clearAll, manager => ((), clearAllJitObjects manager)

section Specification

structure LiveRange where
  objectStart : FramePtr
  object : HeapObject
  range : Dwarf.Range
  listed : ∃ ranges, object.file.pcRanges = .ok ranges ∧ range ∈ ranges

def LiveRange.entry (live : LiveRange) : RangeEntry :=
  ⟨live.range.low, live.range.high, live.objectStart, live.object.address⟩

structure Registry where
  live : List LiveRange
  opened : Nat

def Registry.empty : Registry := ⟨[], 0⟩

def liveRanges (ptr : FramePtr) (object : HeapObject) : List LiveRange :=
  match parsed : object.file.pcRanges with
  | .error _ => []
  | .ok ranges => ranges.attach.map fun range => ⟨ptr, object, range.1, ranges, parsed, range.2⟩

def specStep : Operation → Registry → Unit × Registry
  | .register _ (.error _), registry => ((), registry)
  | .register ptr (.ok file), registry =>
      ((), ⟨registry.live ++ liveRanges ptr ⟨registry.opened, file⟩, registry.opened + 1⟩)
  | .unregister ptr, registry => ((), { registry with live := registry.live.filter (·.objectStart ≠ ptr) })
  | .clearAll, registry => ((), { registry with live := [] })

end Specification

/-- The range list holds the live ranges by their starts, and the objects of live ranges are owned. -/
structure Tracks (manager : JitObjectManager) (registry : Registry) : Prop where
  ordered : manager.rangeList.Pairwise fun entry later => entry.low ≤ later.low
  entries : manager.rangeList.Perm (registry.live.map LiveRange.entry)
  owned : ∀ live ∈ registry.live, ⟨live.objectStart, live.object⟩ ∈ manager.objects
  addresses : (manager.objects.map (·.object.address)).Nodup
  fresh : ∀ entry ∈ manager.objects, entry.object.address < manager.nextAddress
  opened : registry.opened = manager.nextAddress

section Steps

variable {manager : JitObjectManager} {registry : Registry}

theorem mem_liveRanges {ptr : FramePtr} {object : HeapObject} {live : LiveRange}
    (member : live ∈ liveRanges ptr object) : live.objectStart = ptr ∧ live.object = object := by
  unfold liveRanges at member
  split at member
  · cases member
  · obtain ⟨range, -, rfl⟩ := List.mem_map.mp member
    exact ⟨rfl, rfl⟩

theorem liveRanges_entries {ptr : FramePtr} {object : HeapObject} {ranges : List Dwarf.Range}
    (parsed : object.file.pcRanges = .ok ranges) :
    (liveRanges ptr object).map LiveRange.entry =
      ranges.map fun range => ⟨range.low, range.high, ptr, object.address⟩ := by
  unfold liveRanges
  split <;> rename_i found
  · rw [parsed] at found
    cases found
  · rw [parsed, Except.ok.injEq] at found
    subst found
    rw [List.map_map]
    exact List.attach_map_val
      (f := fun range : Dwarf.Range => (⟨range.low, range.high, ptr, object.address⟩ : RangeEntry))

theorem liveRanges_error {ptr : FramePtr} {object : HeapObject} {failure : Exception}
    (failed : object.file.pcRanges = .error failure) : liveRanges ptr object = [] := by
  unfold liveRanges
  split <;> rename_i found
  · rfl
  · rw [failed] at found
    cases found

theorem Tracks.own (tracks : Tracks manager registry) (ptr : FramePtr) (file : JitObject) :
    Tracks ⟨manager.objects ++ [⟨ptr, ⟨manager.nextAddress, file⟩⟩], manager.rangeList, manager.nextAddress + 1⟩
      ⟨registry.live, registry.opened + 1⟩ where
  ordered := tracks.ordered
  entries := tracks.entries
  owned live member := List.mem_append_left _ (tracks.owned live member)
  addresses := by
    rw [List.map_append, List.map_singleton, List.nodup_append_comm, List.singleton_append, List.nodup_cons]
    refine ⟨fun taken => ?_, tracks.addresses⟩
    obtain ⟨entry, member, same⟩ := List.mem_map.mp taken
    exact absurd same (Nat.ne_of_lt (tracks.fresh entry member))
  fresh entry member := by
    rcases List.mem_append.mp member with before | same
    · exact Nat.lt_succ_of_lt (tracks.fresh entry before)
    · rw [List.mem_singleton.mp same]
      exact Nat.lt_succ_self _
  opened := congrArg (· + 1) tracks.opened

theorem Tracks.insertRanges (tracks : Tracks manager registry) {ptr : FramePtr} {object : HeapObject}
    (member : ⟨ptr, object⟩ ∈ manager.objects) {ranges : List Dwarf.Range}
    (parsed : object.file.pcRanges = .ok ranges) :
    Tracks { manager with rangeList := ranges.foldl (fun rangeList range =>
        insertUpper RangeEntry.low rangeList ⟨range.low, range.high, ptr, object.address⟩) manager.rangeList }
      ⟨registry.live ++ liveRanges ptr object, registry.opened⟩ := by
  rw [← List.foldl_map (f := fun range : Dwarf.Range => ⟨range.low, range.high, ptr, object.address⟩)
    (g := insertUpper RangeEntry.low)]
  exact {
    ordered := foldl_insertUpper_ordered RangeEntry.low _ _ tracks.ordered
    entries := by
      rw [List.map_append, liveRanges_entries parsed]
      exact (foldl_insertUpper_perm ..).trans (tracks.entries.append_right _)
    owned := fun live within => by
      rcases List.mem_append.mp within with before | added
      · exact tracks.owned live before
      · rw [(mem_liveRanges added).1, (mem_liveRanges added).2]
        exact member
    addresses := tracks.addresses
    fresh := tracks.fresh
    opened := tracks.opened }

theorem Tracks.register (tracks : Tracks manager registry) (ptr : FramePtr) (image : Except Exception JitObject) :
    Tracks (addJitObject ptr image manager) (specStep (.register ptr image) registry).2 := by
  match image with
  | .error _ => exact tracks
  | .ok file =>
    have owned := tracks.own ptr file
    have same : (⟨registry.opened, file⟩ : HeapObject) = ⟨manager.nextAddress, file⟩ := by rw [tracks.opened]
    simp only [addJitObject, specStep, same]
    split <;> rename_i parsed
    · rw [liveRanges_error parsed, List.append_nil]
      exact owned
    · exact owned.insertRanges (List.mem_append_right _ (List.mem_singleton_self _)) parsed

theorem Tracks.unregister (tracks : Tracks manager registry) (ptr : FramePtr) :
    Tracks (removeJitObject ptr manager) (specStep (.unregister ptr) registry).2 where
  ordered := tracks.ordered.filter _
  entries := by
    have filtered := tracks.entries.filter fun entry => decide (entry.objectStart ≠ ptr)
    rw [List.filter_map] at filtered
    exact filtered
  owned live member := by
    have kept := List.mem_filter.mp member
    exact List.mem_filter.mpr ⟨tracks.owned live kept.1, kept.2⟩
  addresses := tracks.addresses.sublist (List.filter_sublist.map _)
  fresh entry member := tracks.fresh entry (List.mem_filter.mp member).1
  opened := tracks.opened

theorem Tracks.clearAll (tracks : Tracks manager registry) :
    Tracks (clearAllJitObjects manager) (specStep .clearAll registry).2 where
  ordered := List.Pairwise.nil
  entries := List.Perm.refl []
  owned _ member := absurd member List.not_mem_nil
  addresses := List.nodup_nil
  fresh _ member := absurd member List.not_mem_nil
  opened := tracks.opened

theorem step_tracks (operation : Operation) (manager : JitObjectManager) (registry : Registry)
    (tracks : Tracks manager registry) :
    (step operation manager).1 = (specStep operation registry).1 ∧
      Tracks (step operation manager).2 (specStep operation registry).2 := by
  refine ⟨rfl, ?_⟩
  cases operation with
  | register ptr image => exact tracks.register ptr image
  | unregister ptr => exact tracks.unregister ptr
  | clearAll => exact tracks.clearAll

end Steps

section Lookup

variable {manager : JitObjectManager} {registry : Registry} {pc : FramePtr}

/-- The pointer of a live range is followed to the object it was registered with. -/
theorem Tracks.dereference (tracks : Tracks manager registry) {live : LiveRange} (member : live ∈ registry.live) :
    JitObjectManager.dereference live.object.address manager = .ok live.object := by
  have owned := tracks.owned live member
  unfold JitObjectManager.dereference
  cases found : manager.objects.find? (·.object.address = live.object.address) with
  | none => exact absurd (List.find?_eq_none.mp found _ owned) (by simp)
  | some entry =>
    have same : entry.object.address = live.object.address := by simpa using List.find?_some found
    have equal := List.inj_on_of_nodup_map tracks.addresses (List.mem_of_find?_eq_some found) owned same
    rw [equal]
    rfl

theorem Tracks.mem_rangeList_iff (tracks : Tracks manager registry) (entry : RangeEntry) :
    entry ∈ manager.rangeList ↔ ∃ live ∈ registry.live, live.entry = entry := by
  rw [tracks.entries.mem_iff, List.mem_map]

theorem Tracks.owner (tracks : Tracks manager registry) (entry : RangeEntry) (member : entry ∈ manager.rangeList) :
    ∃ owner ∈ manager.objects, owner.objectStart = entry.objectStart ∧ owner.object.address = entry.object := by
  obtain ⟨live, within, rfl⟩ := (tracks.mem_rangeList_iff entry).mp member
  exact ⟨_, tracks.owned live within, rfl, rfl⟩

theorem live_unique {live other : LiveRange}
    (disjoint : registry.live.Pairwise fun live other => live.range.Disjoint other.range)
    (member : live ∈ registry.live) (listed : other ∈ registry.live) {pc : FramePtr}
    (inside : live.range.contains pc = true) (within : other.range.contains pc = true) : live = other := by
  by_contra differ
  have symmetric : Std.Symm fun live other : LiveRange => live.range.Disjoint other.range :=
    ⟨fun _ _ apart => apart.symm⟩
  rw [(disjoint.forall member listed differ).not_both inside] at within
  cases within

theorem LiveRange.nonempty (live : LiveRange) : live.range.Nonempty := by
  obtain ⟨ranges, parsed, member⟩ := live.listed
  exact live.object.file.nonempty ranges parsed live.range member

def Answers (registry : Registry) (pc : FramePtr) (answer : Option JitObjectLookupResult) : Prop :=
  ∀ result, answer = some result ↔
    ∃ live ∈ registry.live, live.range.contains pc = true ∧ result = ⟨live.object, live.range.low⟩

theorem answers_none (uncovered : ∀ live ∈ registry.live, ¬ live.range.contains pc = true) :
    Answers registry pc none := by
  intro result
  constructor
  · intro found
    cases found
  · rintro ⟨live, member, inside, -⟩
    exact absurd inside (uncovered live member)

theorem answers_some {live : LiveRange}
    (disjoint : registry.live.Pairwise fun live other => live.range.Disjoint other.range)
    (member : live ∈ registry.live) (inside : live.range.contains pc = true) :
    Answers registry pc (some ⟨live.object, live.range.low⟩) := by
  intro result
  constructor
  · intro found
    exact ⟨live, member, inside, (Option.some.inj found).symm⟩
  · rintro ⟨other, listed, within, rfl⟩
    rw [live_unique disjoint member listed inside within]

theorem Tracks.lookup (tracks : Tracks manager registry)
    (disjoint : registry.live.Pairwise fun live other => live.range.Disjoint other.range) (pc : FramePtr) :
    ∃ answer, JitObjectManager.lookup pc manager = .ok answer ∧ Answers registry pc answer := by
  let sorting : Sorting RangeEntry.low manager.rangeList := ⟨_, .refl _, tracks.ordered⟩
  unfold JitObjectManager.lookup
  cases found : firstLessThanOrEqual RangeEntry.low pc manager.rangeList with
  | none =>
    refine ⟨_, rfl, answers_none fun live member inside => ?_⟩
    have starts := (live.range.contains_iff pc).mp inside
    have listed := (tracks.mem_rangeList_iff _).mpr ⟨live, member, rfl⟩
    exact (sorting.found_none_iff pc).mp found _ listed starts.1
  | some entry =>
    have greatest := sorting.found_greatest pc entry found
    obtain ⟨live, member, rfl⟩ := (tracks.mem_rangeList_iff entry).mp greatest.member
    have starts : live.range.low ≤ pc := greatest.le
    by_cases ends : pc < live.range.high
    · refine ⟨some ⟨live.object, live.range.low⟩, ?_,
        answers_some disjoint member ((live.range.contains_iff pc).mpr ⟨starts, ends⟩)⟩
      simp [LiveRange.entry, not_lt.mpr starts, ends, tracks.dereference member]
    · refine ⟨none, ?_, answers_none fun other listed within => ?_⟩
      · simp [LiveRange.entry, not_lt.mpr starts, ends, pure, Except.pure]
      · -- the other range starts no later and reaches over the start of this one
        have bounds := (other.range.contains_iff pc).mp within
        have earlier := greatest.greatest _ ((tracks.mem_rangeList_iff _).mpr ⟨other, listed, rfl⟩) bounds.1
        have below : live.range.low < other.range.high := lt_of_le_of_lt starts bounds.2
        have overlaps := (other.range.contains_iff live.range.low).mpr ⟨earlier, below⟩
        have same := live_unique disjoint member listed live.nonempty.contains_low overlaps
        rw [same] at ends
        exact ends bounds.2

end Lookup

/-- In every run the ranges stay sorted and owned; while the live ranges are disjoint,
a lookup finds the one that covers an address, and its object. -/
theorem run_lookup_iff (operations : List Operation) :
    let manager := (run step operations JitObjectManager.empty).2
    let registry := (run specStep operations Registry.empty).2
    (manager.rangeList.Pairwise fun entry later => entry.low ≤ later.low) ∧
      (∀ entry ∈ manager.rangeList, ∃ owner ∈ manager.objects,
        owner.objectStart = entry.objectStart ∧ owner.object.address = entry.object) ∧
      ((registry.live.Pairwise fun live other => live.range.Disjoint other.range) → ∀ pc,
        ∃ answer, manager.lookup pc = .ok answer ∧ Answers registry pc answer) := by
  have start : Tracks JitObjectManager.empty Registry.empty :=
    ⟨List.Pairwise.nil, List.Perm.refl [], by simp [Registry.empty], List.nodup_nil,
      by simp [JitObjectManager.empty], rfl⟩
  have tracks := (run_refines step_tracks operations _ _ start).2
  exact ⟨tracks.ordered, tracks.owner, tracks.lookup⟩

end Cpptrace.Jit
