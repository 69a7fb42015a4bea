import Cpptrace.Library.InputStream
import Cpptrace.Library.SortedLookup
import Cpptrace.Microfmt.Format

/-! Page protections from `/proc/self/maps`.

The file lists mapped regions in the order of their addresses. A list that goes
backwards was torn while it was read and is read again. A page is looked up by
the starts of the regions.
-/

set_option autoImplicit false

namespace Cpptrace.Platform

open Library

inductive Failure where
  | asserted (exception : Exception)
  | internalError (message : Text)
  /-- The bound of the model's loop, which no file reaches. -/
  | bound
  deriving DecidableEq, Repr

structure AddressRange where
  low : FramePtr
  high : FramePtr
  perms : UInt32
  deriving DecidableEq, Repr

def AddressRange.contains (range : AddressRange) (address : FramePtr) : Prop :=
  range.low ≤ address ∧ address < range.high

instance (range : AddressRange) (address : FramePtr) : Decidable (range.contains address) :=
  inferInstanceAs (Decidable (_ ∧ _))

section Loading

def protRead : UInt32 := 1
def protWrite : UInt32 := 2
def protExec : UInt32 := 4

def perms (r w x : Char) : UInt32 :=
  (if r = 'r' then protRead else 0) ||| (if w = 'w' then protWrite else 0) ||| (if x = 'x' then protExec else 0)

def failureReading : Failure := .internalError "Failure reading /proc/self/maps".toList

def readPermissions (start stop : FramePtr) (stream : InputStream) :
    Except Failure (Option (AddressRange × InputStream)) :=
  let (r, stream) := stream.ignoreOne.takeChar
  let (w, stream) := stream.takeChar
  let (x, stream) := stream.takeChar
  if stream.fail || stream.eof then throw failureReading
  else pure (some (⟨start, stop, perms r w x⟩, stream.ignorePast '\n'))

/-- `read_map_entry`; there is no entry at the end of the file. -/
def readMapEntry (stream : InputStream) : Except Failure (Option (AddressRange × InputStream)) :=
  let (start, stream) := stream.takeHex sizeModulus
  let (stop, stream) := stream.ignoreOne.takeHex sizeModulus
  if stream.eof then pure none
  else if stream.fail then throw failureReading
  else readPermissions (.ofNat start) (.ofNat stop) stream

def appendRange (ranges : List AddressRange) (range : AddressRange) : Except Failure (Option (List AddressRange)) := do
  (assertImpl (range.low ≤ range.high) .verify "range.low <= range.high" none).mapError .asserted
  if ranges.getLast?.any fun lastRange => range.low < lastRange.high then return none
  else return some (ranges ++ [range])

/-- The loop of `try_load_mapped_region_info`, with a bound on its turns. -/
def loadRanges : Nat → List AddressRange → InputStream → Except Failure (Option (List AddressRange))
  | 0, _, _ => throw .bound
  | turns + 1, ranges, stream => do
      match ← readMapEntry stream with
      | none => return some ranges
      | some (range, stream) =>
          match ← appendRange ranges range with
          | none => return none
          | some ranges => loadRanges turns ranges stream

def openStream : Option Text → InputStream
  | some contents => ⟨contents, false, false⟩
  | none => ⟨[], false, true⟩

def tryLoadMappedRegionInfo (contents : Option Text) : Except Failure (Option (List AddressRange)) :=
  let stream := openStream contents
  loadRanges (stream.rest.length + 1) [] stream

/-- What `/proc/self/maps` says each time it is read. -/
abbrev Maps := Nat → Option Text

def retriesFailed (n : Nat) : Failure :=
  .internalError (Microfmt.format "Couldn't successfully load /proc/self/maps after {} retries".toList
    [.int64 (.ofNat n)]).text

def retryFrom (maps : Maps) (n : Nat) : (left i : Nat) → Except Failure (List AddressRange)
  | 0, _ => throw (retriesFailed n)
  | left + 1, i => do
      match ← tryLoadMappedRegionInfo (maps i) with
      | some info => return info
      | none => retryFrom maps n left (i + 1)

def tryLoadMappedRegionInfoWithRetries (maps : Maps) (n : Nat) : Except Failure (List AddressRange) := do
  (assertImpl (0 < n) .verify "n > 0" none).mapError .asserted
  retryFrom maps n n 0

/-- The static variables of `load_mapped_region_info`. -/
structure RegionCache where
  regions : List AddressRange
  hasLoaded : Bool
  deriving DecidableEq, Repr

def loadMappedRegionInfo (maps : Maps) : Command Failure RegionCache (List AddressRange) := do
  if (← get).hasLoaded = false then
    modify fun cache => { cache with hasLoaded := true }
    let info ← MonadExcept.ofExcept (tryLoadMappedRegionInfoWithRetries maps 2)
    modify fun cache => { cache with regions := info }
  return (← get).regions

def mappingNotFound (page : FramePtr) : Failure :=
  .internalError (Microfmt.format "Failed to find mapping for {>16:0h} in /proc/self/maps".toList [.uint64 page]).text

def getPageProtections (maps : Maps) (page : FramePtr) : Command Failure RegionCache UInt32 := do
  let mappedRegionInfo ← loadMappedRegionInfo maps
  match firstLessThanOrEqual AddressRange.low page mappedRegionInfo with
  | none => throw (mappingNotFound page)
  | some range => return range.perms

end Loading

section Fuel

theorem readPermissions_consumes (start stop : FramePtr) (stream next : InputStream) (range : AddressRange)
    (read : readPermissions start stop stream = .ok (some (range, next))) : next.rest.length < stream.rest.length := by
  have space := InputStream.ignoreOne_shrinks stream
  have r := InputStream.takeChar_shrinks stream.ignoreOne
  have w := InputStream.takeChar_shrinks stream.ignoreOne.takeChar.2
  have x := InputStream.takeChar_consumes stream.ignoreOne.takeChar.2.takeChar.2
  have line := InputStream.ignorePast_shrinks stream.ignoreOne.takeChar.2.takeChar.2.takeChar.2 '\n'
  simp only [readPermissions] at read
  split at read
  · cases read
  next intact =>
    simp only [Bool.or_eq_true, not_or, Bool.not_eq_true] at intact
    obtain ⟨-, rfl⟩ := Prod.mk.inj (Option.some.inj (Except.ok.inj read))
    have shorter := x intact.1
    omega

theorem readMapEntry_consumes (stream next : InputStream) (range : AddressRange)
    (read : readMapEntry stream = .ok (some (range, next))) : next.rest.length < stream.rest.length := by
  have start := InputStream.takeHex_shrinks stream sizeModulus
  have dash := InputStream.ignoreOne_shrinks (stream.takeHex sizeModulus).2
  have stop := InputStream.takeHex_shrinks (stream.takeHex sizeModulus).2.ignoreOne sizeModulus
  simp only [readMapEntry] at read
  split at read
  · cases read
  · split at read
    · cases read
    · have permissions := readPermissions_consumes _ _ _ next range read
      omega

theorem readMapEntry_bound (stream : InputStream) : readMapEntry stream ≠ .error .bound := by
  simp only [readMapEntry, readPermissions]
  split
  · nofun
  · split
    · nofun
    · split <;> nofun

theorem appendRange_bound (ranges : List AddressRange) (range : AddressRange) :
    appendRange ranges range ≠ .error .bound := by
  unfold appendRange assertImpl
  split
  · simp only [Except.mapError, pure, Except.pure, bind, Except.bind]
    split <;> nofun
  · nofun

theorem loadRanges_within_bound (turns : Nat) (ranges : List AddressRange) (stream : InputStream)
    (enough : stream.rest.length < turns) : loadRanges turns ranges stream ≠ .error .bound := by
  induction turns generalizing ranges stream with
  | zero => exact absurd enough (Nat.not_lt_zero _)
  | succ turns ih =>
    rw [loadRanges]
    cases read : readMapEntry stream with
    | error failure =>
      rintro ⟨⟩
      exact readMapEntry_bound stream read
    | ok entry =>
      cases entry with
      | none => nofun
      | some entry =>
        obtain ⟨range, next⟩ := entry
        have shorter := readMapEntry_consumes stream next range read
        simp only [Outcome.ok_bind]
        cases appended : appendRange ranges range with
        | error failure =>
          rintro ⟨⟩
          exact appendRange_bound ranges range appended
        | ok extended =>
          cases extended with
          | none => nofun
          | some extended => exact ih extended next (by omega)

theorem tryLoadMappedRegionInfo_within_bound (contents : Option Text) :
    tryLoadMappedRegionInfo contents ≠ .error .bound :=
  loadRanges_within_bound _ [] _ (Nat.lt_succ_self _)

end Fuel

section Regions

/-- A list of regions that does not go backwards. -/
structure Regular (ranges : List AddressRange) : Prop where
  upward : ∀ range ∈ ranges, range.low ≤ range.high
  apart : ranges.Pairwise fun range later => range.high ≤ later.low

theorem regular_nil : Regular [] := ⟨nofun, .nil⟩

namespace Regular

variable {ranges : List AddressRange} (regular : Regular ranges)
include regular

theorem sorted : ranges.Pairwise fun range later => range.low ≤ later.low :=
  regular.apart.imp_of_mem fun member _ apart => le_trans (regular.upward _ member) apart

theorem disjoint : ranges.Pairwise fun range later => ∀ address, ¬ (range.contains address ∧ later.contains address) :=
  regular.apart.imp fun apart _ both =>
    absurd both.1.2 (not_lt.mpr (le_trans apart both.2.1))

theorem append (range : AddressRange) (upward : range.low ≤ range.high)
    (behind : ∀ lastRange, ranges.getLast? = some lastRange → lastRange.high ≤ range.low) :
    Regular (ranges ++ [range]) where
  upward := by
    intro other member
    rcases List.mem_append.mp member with within | same
    · exact regular.upward other within
    · rw [List.mem_singleton.mp same]
      exact upward
  apart := by
    refine List.pairwise_append.mpr ⟨regular.apart, List.pairwise_singleton _ _, ?_⟩
    intro other member last same
    rw [List.mem_singleton.mp same]
    obtain ⟨lastRange, ends⟩ := List.getLast?_isSome.mpr (List.ne_nil_of_mem member) |> Option.isSome_iff_exists.mp
    have beyond := behind lastRange ends
    obtain ⟨front, rfl⟩ := List.getLast?_eq_some_iff.mp ends
    rcases List.mem_append.mp member with before | same
    · have apart := (List.pairwise_append.mp regular.apart).2.2 other before lastRange (List.mem_singleton_self _)
      exact le_trans apart (le_trans (regular.upward _ (List.mem_append_right _ (List.mem_singleton_self _))) beyond)
    · rw [List.mem_singleton.mp same]
      exact beyond

theorem found_of_contains (range : AddressRange) (member : range ∈ ranges) (address : FramePtr)
    (contains : range.contains address) : firstLessThanOrEqual AddressRange.low address ranges = some range := by
  rw [firstLessThanOrEqual, takeWhile_eq_filter _ _ _ regular.sorted]
  obtain ⟨before, after, rfl⟩ := List.append_of_mem member
  -- the regions behind it start above the address, which leaves it as the last
  have later := (List.pairwise_cons.mp (List.pairwise_append.mp regular.apart).2.1).1
  have none : (after.filter fun other => other.low ≤ address) = [] := List.filter_eq_nil_iff.mpr fun other within => by
    simpa using lt_of_lt_of_le contains.2 (later other within)
  simp [List.filter_append, contains.1, none]

end Regular

theorem appendRange_regular (ranges extended : List AddressRange) (range : AddressRange) (regular : Regular ranges)
    (appended : appendRange ranges range = .ok (some extended)) : Regular extended := by
  unfold appendRange assertImpl at appended
  split at appended
  next upward =>
    simp only [Except.mapError, pure, Except.pure, bind, Except.bind] at appended
    split at appended
    · cases appended
    next untorn =>
      obtain rfl := Option.some.inj (Except.ok.inj appended)
      refine regular.append range (of_decide_eq_true upward) fun lastRange ends => ?_
      simpa [ends] using untorn
  · cases appended

theorem loadRanges_regular (turns : Nat) (ranges loaded : List AddressRange) (stream : InputStream)
    (regular : Regular ranges) (done : loadRanges turns ranges stream = .ok (some loaded)) : Regular loaded := by
  induction turns generalizing ranges stream with
  | zero => cases done
  | succ turns ih =>
    rw [loadRanges] at done
    obtain ⟨entry, -, done⟩ := (Outcome.bind_eq_ok_iff ..).mp done
    cases entry with
    | none =>
      obtain rfl := Option.some.inj (Except.ok.inj done)
      exact regular
    | some entry =>
      obtain ⟨extended, appended, done⟩ := (Outcome.bind_eq_ok_iff ..).mp done
      cases extended with
      | none => cases done
      | some extended => exact ih extended entry.2 (appendRange_regular ranges extended entry.1 regular appended) done

theorem tryLoadMappedRegionInfo_regular (contents : Option Text) (regions : List AddressRange)
    (accepted : tryLoadMappedRegionInfo contents = .ok (some regions)) : Regular regions :=
  loadRanges_regular _ [] regions _ regular_nil accepted

end Regions

section Lookup

/-- The first call reads the file, and reads it again if it was torn; later calls keep the regions. -/
inductive Accepts (maps : Maps) : RegionCache → List AddressRange → Prop where
  | cached {contents : Option Text} {regions : List AddressRange} :
      tryLoadMappedRegionInfo contents = .ok (some regions) → Accepts maps ⟨regions, true⟩ regions
  | first {old regions : List AddressRange} :
      tryLoadMappedRegionInfo (maps 0) = .ok (some regions) → Accepts maps ⟨old, false⟩ regions
  | torn {old regions : List AddressRange} : tryLoadMappedRegionInfo (maps 0) = .ok none →
      tryLoadMappedRegionInfo (maps 1) = .ok (some regions) → Accepts maps ⟨old, false⟩ regions

namespace Accepts

variable {maps : Maps} {cache : RegionCache} {regions : List AddressRange}

theorem regular (accepts : Accepts maps cache regions) : Regular regions := by
  cases accepts with
  | cached loaded => exact tryLoadMappedRegionInfo_regular _ _ loaded
  | first loaded => exact tryLoadMappedRegionInfo_regular _ _ loaded
  | torn _ loaded => exact tryLoadMappedRegionInfo_regular _ _ loaded

theorem loads (accepts : Accepts maps cache regions) :
    loadMappedRegionInfo maps cache = (.ok regions, ⟨regions, true⟩) := by
  cases accepts with
  | cached loaded => rfl
  | first loaded =>
    have info : tryLoadMappedRegionInfoWithRetries maps 2 = .ok regions := by
      simp [tryLoadMappedRegionInfoWithRetries, assertImpl, Except.mapError, retryFrom, loaded, bind, Except.bind, pure,
        Except.pure]
    simp [loadMappedRegionInfo, info]
  | torn none loaded =>
    have info : tryLoadMappedRegionInfoWithRetries maps 2 = .ok regions := by
      simp [tryLoadMappedRegionInfoWithRetries, assertImpl, Except.mapError, retryFrom, none, loaded, bind, Except.bind,
        pure, Except.pure]
    simp [loadMappedRegionInfo, info]

end Accepts

/-- The permissions of the region that contains a page, and an exception where no region does. -/
def AnswersFor (regions : List AddressRange) (page : FramePtr) (answer : Except Failure UInt32) : Prop :=
  (∀ range ∈ regions, range.contains page → answer = .ok range.perms) ∧
    ((∀ range ∈ regions, ¬ range.contains page) → ∃ failure, answer = .error failure)

theorem getPageProtections_apply (maps : Maps) (cache : RegionCache) (regions : List AddressRange)
    (accepts : Accepts maps cache regions) (page : FramePtr) :
    (getPageProtections maps page cache).1 =
      match firstLessThanOrEqual AddressRange.low page regions with
      | none => .error (mappingNotFound page)
      | some range => .ok range.perms := by
  simp only [getPageProtections, Command.bind_apply, accepts.loads]
  cases firstLessThanOrEqual AddressRange.low page regions with
  | none => rfl
  | some range => rfl

/-- Accepted regions are sorted and disjoint, and a page gets the answer that is right for it if and
only if a region contains it or none starts at or below it. -/
theorem getPageProtections_answers_iff (maps : Maps) (cache : RegionCache) (regions : List AddressRange)
    (accepts : Accepts maps cache regions) (page : FramePtr) :
    ((regions.Pairwise fun range later => range.low ≤ later.low) ∧
      (regions.Pairwise fun range later => ∀ address, ¬ (range.contains address ∧ later.contains address))) ∧
    (AnswersFor regions page (getPageProtections maps page cache).1 ↔
      (∃ range ∈ regions, range.contains page) ∨ ∀ range ∈ regions, page < range.low) := by
  have regular := accepts.regular
  have missed : firstLessThanOrEqual AddressRange.low page regions = none ↔ ∀ range ∈ regions, page < range.low := by
    simpa using Sorting.found_none_iff ⟨regions, .refl _, regular.sorted⟩ page
  refine ⟨⟨regular.sorted, regular.disjoint⟩, ?_⟩
  rw [getPageProtections_apply maps cache regions accepts page]
  constructor
  · intro answers
    by_contra neither
    obtain ⟨outside, started⟩ := not_or.mp neither
    -- no region contains the page, so an exception is right, but a region below it was found
    obtain ⟨failure, thrown⟩ := answers.2 fun range member contains => outside ⟨range, member, contains⟩
    cases found : firstLessThanOrEqual AddressRange.low page regions with
    | none => exact started (missed.mp found)
    | some range => simp [found] at thrown
  · rintro (⟨range, member, contains⟩ | below)
    · refine ⟨fun other within also => ?_, fun outside => absurd contains (outside range member)⟩
      rw [regular.found_of_contains other within page also]
    · rw [missed.mpr below]
      refine ⟨fun range member contains => ?_, fun _ => ⟨_, rfl⟩⟩
      exact absurd contains.1 (not_le.mpr (below range member))

end Lookup

def holedMaps : Text :=
  "1000-2000 r-xp 00000000 08:01 17 /bin/a\n5000-6000 rw-p 00000000 00:00 0\n".toList

def holedRegions : List AddressRange := [⟨0x1000, 0x2000, 5⟩, ⟨0x5000, 0x6000, 3⟩]

theorem holedMaps_accepted : tryLoadMappedRegionInfo (some holedMaps) = .ok (some holedRegions) := by
  decide +kernel

theorem getPageProtections_answers_iff_at_hole :
    ((holedRegions.Pairwise fun range later => range.low ≤ later.low) ∧
      (holedRegions.Pairwise fun range later => ∀ address, ¬ (range.contains address ∧ later.contains address))) ∧
    (AnswersFor holedRegions 0x3000 (getPageProtections (fun _ => some holedMaps) 0x3000 ⟨[], false⟩).1 ↔
      (∃ range ∈ holedRegions, range.contains 0x3000) ∨ ∀ range ∈ holedRegions, 0x3000 < range.low) :=
  getPageProtections_answers_iff _ _ _ (.first holedMaps_accepted) 0x3000

/-- A page in the hole gets the protections of the mapping below it. -/
theorem getPageProtections_hole :
    (∀ range ∈ holedRegions, ¬ range.contains 0x3000) ∧
      (getPageProtections (fun _ => some holedMaps) 0x3000 ⟨[], false⟩).1 = .ok 5 := by
  refine ⟨by decide, ?_⟩
  rw [getPageProtections_apply _ _ _ (.first holedMaps_accepted)]
  rfl

end Cpptrace.Platform
