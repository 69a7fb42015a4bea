import Cpptrace.Library.Grouping
import Cpptrace.Symbols.FlattenInlines

/-! `libdwarf::resolve_frames` on Linux and macOS.

The frames are grouped by object file. A group is resolved frame by frame, an
exception ends it, and a last pass fills in the frames that were left at the
null frame. Resolvers, object files and the registry of JIT objects stand
outside: what they answer may depend on the frame they are asked about.
-/

set_option autoImplicit false

namespace Cpptrace.Symbols.Libdwarf

open Cpptrace.Library

section

variable {Failure : Type}

structure ObjectFile (Failure : Type) where
  lookupSymbol : Nat → FramePtr → Except Failure (Option Text)

structure JitObjectLookupResult (Failure : Type) where
  object : ObjectFile Failure
  base : FramePtr

/-- A `symbol_resolver`. It hands back the addresses it was given and marks the inlines it finds. -/
structure SymbolResolver (Failure : Type) where
  resolveFrame : Nat → ObjectFrame → Except Failure FrameWithInlines
  faithful : ∀ position dlframe resolved, resolveFrame position dlframe = .ok resolved →
    resolved.frame.rawAddress = dlframe.rawAddress ∧ resolved.frame.objectAddress = dlframe.objectAddress ∧
      Marked resolved

structure Services (Failure : Type) where
  shouldAbsorbTraceExceptions : Bool
  lookupJitObject : Nat → FramePtr → Except Failure (Option (JitObjectLookupResult Failure))
  /-- An object that cannot be opened is `none`. -/
  openObjectCached : Text → Except Failure (Option (ObjectFile Failure))
  getResolver : Text → Except Failure (SymbolResolver Failure)

variable (services : Services Failure)

def logAndMaybePropagateException (exception : Failure) : Except Failure Unit :=
  if services.shouldAbsorbTraceExceptions then pure () else throw exception

def tryResolveJitFrame (position : Nat) (dlframe : ObjectFrame) (frame : FrameWithInlines) :
    Except Failure FrameWithInlines := do
  match ← services.lookupJitObject position dlframe.rawAddress with
  | none => return frame
  | some objectRes =>
      let symbol ← objectRes.object.lookupSymbol position (dlframe.rawAddress - objectRes.base)
      return { frame with frame.symbol := symbol.getD [] }

def tryResolveFrame (resolver : SymbolResolver Failure) (position : Nat) (dlframe : ObjectFrame)
    (frame : FrameWithInlines) : Except Failure FrameWithInlines :=
  match resolver.resolveFrame position dlframe with
  | .ok resolved => pure resolved
  | .error exception => do
      logAndMaybePropagateException services exception
      return { frame with
        frame.rawAddress := dlframe.rawAddress
        frame.objectAddress := dlframe.objectAddress
        frame.filename := dlframe.objectPath }

def symbolFallback (object : Option (ObjectFile Failure)) (position : Nat) (dlframe : ObjectFrame)
    (frame : FrameWithInlines) : Except Failure FrameWithInlines := do
  match object with
  | none => return frame
  | some object =>
      if frame.frame.symbol = [] then
        let symbol ← object.lookupSymbol position dlframe.objectAddress
        return { frame with frame.symbol := symbol.getD [] }
      else return frame

/-- A frame is written when nothing was thrown, and is left alone otherwise. -/
def written (frame : FrameWithInlines) : Except Failure FrameWithInlines → FrameWithInlines × Option Failure
  | .ok next => (next, none)
  | .error exception => (frame, some exception)

def resolveJitEntry (position : Nat) (dlframe : ObjectFrame) (frame : FrameWithInlines) :
    FrameWithInlines × Option Failure :=
  written frame (tryResolveJitFrame services position dlframe frame)

def resolveEntry (object : Option (ObjectFile Failure)) (resolver : SymbolResolver Failure)
    (position : Nat) (dlframe : ObjectFrame) (frame : FrameWithInlines) :
    FrameWithInlines × Option Failure :=
  match tryResolveFrame services resolver position dlframe frame with
  | .error exception => (frame, some exception)
  | .ok frame => written frame (symbolFallback object position dlframe frame)

/-- The body of the loop over the groups, with the exception that leaves its `try` block. -/
def resolveGroup (objectName : Text) (entries : List (ObjectFrame × Nat)) (trace : List FrameWithInlines) :
    List FrameWithInlines × Option Failure :=
  if objectName = [] then updateAll (resolveJitEntry services) entries trace
  else
    match services.openObjectCached objectName with
    | .error exception => (trace, some exception)
    | .ok object =>
        match services.getResolver objectName with
        | .error exception => (trace, some exception)
        | .ok resolver => updateAll (resolveEntry services object resolver) entries trace

def resolveGroups :
    List (Sigma fun _ : Text => List (ObjectFrame × Nat)) → List FrameWithInlines →
      Except Failure (List FrameWithInlines)
  | [], trace => pure trace
  | ⟨objectName, entries⟩ :: rest, trace =>
      match resolveGroup services objectName entries trace with
      | (trace, none) => resolveGroups rest trace
      | (trace, some exception) => do
          logAndMaybePropagateException services exception
          resolveGroups rest trace

def basicInfo (dlframe : ObjectFrame) : FrameWithInlines where
  frame := ⟨dlframe.rawAddress, dlframe.objectAddress, .null, .null, dlframe.objectPath, [], false⟩
  inlines := []

def fillBasicInfo (dlframe : ObjectFrame) (entry : FrameWithInlines) : FrameWithInlines :=
  if entry.frame.equals nullFrame then basicInfo dlframe else entry

def nullEntry : FrameWithInlines := ⟨nullFrame, []⟩

/-- The groups that `collate_frames` makes, in the order its map is walked. -/
abbrev CollatedFrames (frames : List ObjectFrame) := Grouping ObjectFrame.objectPath frames

def collateFrames (frames : List ObjectFrame) : CollatedFrames frames :=
  ⟨(groupBy ObjectFrame.objectPath frames).entries, .refl _⟩

def resolveFrames (frames : List ObjectFrame) (collated : CollatedFrames frames) :
    Except Failure (List StacktraceFrame) := do
  let trace ← resolveGroups services collated.groups (List.replicate frames.length nullEntry)
  return flattenInlines (List.zipWith fillBasicInfo frames trace)

def JitLookupThrows (position : Nat) (dlframe : ObjectFrame) : Prop :=
  (∃ exception, services.lookupJitObject position dlframe.rawAddress = .error exception) ∨
  ∃ objectRes exception, services.lookupJitObject position dlframe.rawAddress = .ok (some objectRes) ∧
    objectRes.object.lookupSymbol position (dlframe.rawAddress - objectRes.base) = .error exception

def JitObjectNames (position : Nat) (dlframe : ObjectFrame) : Prop :=
  ∃ objectRes symbol, services.lookupJitObject position dlframe.rawAddress = .ok (some objectRes) ∧
    objectRes.object.lookupSymbol position (dlframe.rawAddress - objectRes.base) = .ok (some symbol) ∧
    symbol ≠ []

/-- The loop over the frames without an object file gets to a frame and finds a symbol for it. -/
def NamedByJitObject (frames : List ObjectFrame) (position : Nat) (dlframe : ObjectFrame) : Prop :=
  (∀ earlier other, frames[earlier]? = some other → other.objectPath = [] → earlier < position →
    ¬ JitLookupThrows services earlier other) ∧
  JitObjectNames services position dlframe

theorem resolveJitEntry_succeeds_iff (position : Nat) (dlframe : ObjectFrame) (frame : FrameWithInlines) :
    (resolveJitEntry services position dlframe frame).2 = none ↔ ¬ JitLookupThrows services position dlframe := by
  simp only [resolveJitEntry, tryResolveJitFrame, JitLookupThrows]
  cases services.lookupJitObject position dlframe.rawAddress with
  | error exception => simp [written, bind, Except.bind]
  | ok found =>
    cases found with
    | none => simp [written, bind, Except.bind, pure, Except.pure]
    | some objectRes =>
      cases looked : objectRes.object.lookupSymbol position (dlframe.rawAddress - objectRes.base) <;>
        simp [written, bind, Except.bind, pure, Except.pure, looked]

theorem resolveJitEntry_unnamed (position : Nat) (dlframe : ObjectFrame)
    (unnamed : ¬ JitObjectNames services position dlframe) :
    (resolveJitEntry services position dlframe nullEntry).1 = nullEntry := by
  simp only [resolveJitEntry, tryResolveJitFrame, JitObjectNames] at unnamed ⊢
  cases looked : services.lookupJitObject position dlframe.rawAddress with
  | error exception => rfl
  | ok found =>
    cases found with
    | none => rfl
    | some objectRes =>
      cases answer : objectRes.object.lookupSymbol position (dlframe.rawAddress - objectRes.base) with
      | error exception => simp [written, bind, Except.bind, answer]
      | ok symbol =>
        have empty : symbol.getD [] = [] := by
          cases symbol with
          | none => rfl
          | some symbol =>
            by_contra nonempty
            exact unnamed ⟨objectRes, symbol, looked, answer, nonempty⟩
        simp [written, bind, Except.bind, pure, Except.pure, answer, empty, nullEntry, nullFrame]

def namedEntry (symbol : Text) : FrameWithInlines :=
  ⟨⟨0, 0, .null, .null, [], symbol, false⟩, []⟩

theorem resolveJitEntry_named (position : Nat) (dlframe : ObjectFrame)
    (named : JitObjectNames services position dlframe) :
    ∃ symbol, symbol ≠ [] ∧ (resolveJitEntry services position dlframe nullEntry).1 =
      namedEntry symbol := by
  obtain ⟨objectRes, symbol, looked, answer, nonempty⟩ := named
  refine ⟨symbol, nonempty, ?_⟩
  simp [resolveJitEntry, tryResolveJitFrame, written, bind, Except.bind, pure, Except.pure, looked, answer,
    nullEntry, nullFrame, namedEntry]

structure Settled (dlframe : ObjectFrame) (entry : FrameWithInlines) : Prop where
  marked : Marked entry
  addressed : entry.frame.equals nullFrame = true ∨ entry.frame.rawAddress = dlframe.rawAddress

theorem nullEntry_marked : Marked nullEntry :=
  ⟨rfl, fun _ member => nomatch member⟩

theorem nullEntry_settled (dlframe : ObjectFrame) : Settled dlframe nullEntry :=
  ⟨nullEntry_marked, .inl (by decide)⟩

theorem tryResolveFrame_settled (resolver : SymbolResolver Failure) (position : Nat) (dlframe : ObjectFrame)
    (entry : FrameWithInlines) (resolved : tryResolveFrame services resolver position dlframe nullEntry = .ok entry) :
    Marked entry ∧ entry.frame.rawAddress = dlframe.rawAddress := by
  simp only [tryResolveFrame] at resolved
  cases answer : resolver.resolveFrame position dlframe with
  | ok found =>
    rw [answer] at resolved
    obtain rfl := Except.ok.inj resolved
    have faithful := resolver.faithful position dlframe _ answer
    exact ⟨faithful.2.2, faithful.1⟩
  | error exception =>
    rw [answer] at resolved
    simp only [logAndMaybePropagateException] at resolved
    split at resolved
    · obtain rfl := Except.ok.inj resolved
      exact ⟨⟨rfl, fun _ member => nomatch member⟩, rfl⟩
    · cases resolved

theorem symbolFallback_settled (object : Option (ObjectFile Failure)) (position : Nat) (dlframe : ObjectFrame)
    (entry : FrameWithInlines) (marked : Marked entry) (addressed : entry.frame.rawAddress = dlframe.rawAddress) :
    Settled dlframe (written entry (symbolFallback object position dlframe entry)).1 := by
  have kept : Settled dlframe entry := ⟨marked, .inr addressed⟩
  cases object with
  | none => exact kept
  | some object =>
    simp only [symbolFallback]
    split
    · cases object.lookupSymbol position dlframe.objectAddress with
      | error exception => exact kept
      | ok symbol => exact ⟨⟨marked.call, marked.inlined⟩, .inr addressed⟩
    · exact kept

theorem resolveEntry_settled (object : Option (ObjectFile Failure)) (resolver : SymbolResolver Failure)
    (position : Nat) (dlframe : ObjectFrame) :
    Settled dlframe (resolveEntry services object resolver position dlframe nullEntry).1 := by
  simp only [resolveEntry]
  cases resolved : tryResolveFrame services resolver position dlframe nullEntry with
  | error exception => exact nullEntry_settled dlframe
  | ok entry =>
    obtain ⟨marked, addressed⟩ := tryResolveFrame_settled services resolver position dlframe entry resolved
    exact symbolFallback_settled object position dlframe entry marked addressed

/-- What the groups make of the entry of one frame. -/
structure Outcome (frames : List ObjectFrame) (position : Nat) (dlframe : ObjectFrame)
    (entry : FrameWithInlines) : Prop where
  withObject : dlframe.objectPath ≠ [] → Settled dlframe entry
  reached : dlframe.objectPath = [] →
    Reaches (resolveJitEntry services) nullEntry (entriesOf ObjectFrame.objectPath frames []) position →
    entry = (resolveJitEntry services position dlframe nullEntry).1
  unreached : dlframe.objectPath = [] →
    ¬ Reaches (resolveJitEntry services) nullEntry (entriesOf ObjectFrame.objectPath frames []) position →
    entry = nullEntry

theorem resolveGroup_entry (frames : List ObjectFrame) (objectName : Text) (initial : List FrameWithInlines)
    (fresh : ∀ entry ∈ entriesOf ObjectFrame.objectPath frames objectName, initial[entry.2]? = some nullEntry)
    (position : Nat) (dlframe : ObjectFrame)
    (member : (dlframe, position) ∈ entriesOf ObjectFrame.objectPath frames objectName) :
    ∃ entry, (resolveGroup services objectName (entriesOf ObjectFrame.objectPath frames objectName)
      initial).1[position]? = some entry ∧ Outcome services frames position dlframe entry := by
  have path := ((mem_entriesOf ..).mp member).2
  have sorted := entriesOf_sorted ObjectFrame.objectPath frames objectName
  rw [resolveGroup]
  split
  next empty =>
    subst empty
    have updated := updateAll_entry (resolveJitEntry services) nullEntry _ initial sorted fresh dlframe position member
    by_cases reached : Reaches (resolveJitEntry services) nullEntry
        (entriesOf ObjectFrame.objectPath frames []) position
    · exact ⟨_, updated.1 reached, fun named => absurd path named, fun _ _ => rfl,
        fun _ unreached => absurd reached unreached⟩
    · exact ⟨_, updated.2 reached, fun named => absurd path named, fun _ reached' => absurd reached' reached,
        fun _ _ => rfl⟩
  next named =>
    have settled : ∀ entry, Settled dlframe entry → Outcome services frames position dlframe entry :=
      fun entry settled => ⟨fun _ => settled, fun empty => absurd (path.symm.trans empty) named,
        fun empty => absurd (path.symm.trans empty) named⟩
    have untouched : ∃ entry, initial[position]? = some entry ∧ Outcome services frames position dlframe entry :=
      ⟨nullEntry, fresh _ member, settled _ (nullEntry_settled dlframe)⟩
    -- an exception before the loop leaves the entries of the group as they were
    cases services.openObjectCached objectName with
    | error exception => exact untouched
    | ok object =>
      cases services.getResolver objectName with
      | error exception => exact untouched
      | ok resolver =>
        have updated := updateAll_entry (resolveEntry services object resolver) nullEntry _ initial sorted fresh
          dlframe position member
        by_cases reached : Reaches (resolveEntry services object resolver) nullEntry
            (entriesOf ObjectFrame.objectPath frames objectName) position
        · exact ⟨_, updated.1 reached, settled _ (resolveEntry_settled ..)⟩
        · exact ⟨_, updated.2 reached, settled _ (nullEntry_settled dlframe)⟩

theorem resolveGroup_other (objectName : Text) (entries : List (ObjectFrame × Nat)) (initial : List FrameWithInlines)
    (position : Nat) (absent : ∀ entry ∈ entries, entry.2 ≠ position) :
    (resolveGroup services objectName entries initial).1[position]? = initial[position]? := by
  rw [resolveGroup]
  split
  · exact updateAll_other _ entries initial position absent
  · cases services.openObjectCached objectName with
    | error exception => rfl
    | ok object =>
      cases services.getResolver objectName with
      | error exception => rfl
      | ok resolver => exact updateAll_other _ entries initial position absent

/-- A group whose exception is absorbed leaves the groups after it to run. -/
theorem resolveGroups_cons (objectName : Text) (entries : List (ObjectFrame × Nat))
    (rest : List (Sigma fun _ : Text => List (ObjectFrame × Nat))) (initial final : List FrameWithInlines)
    (done : resolveGroups services (⟨objectName, entries⟩ :: rest) initial = .ok final) :
    resolveGroups services rest (resolveGroup services objectName entries initial).1 = .ok final := by
  simp only [resolveGroups, logAndMaybePropagateException] at done
  generalize resolveGroup services objectName entries initial = result at done ⊢
  obtain ⟨next, failure⟩ := result
  cases failure with
  | none => exact done
  | some exception =>
    dsimp only at done ⊢
    split at done
    · exact done
    · cases done

theorem resolveGroups_other (groups : List (Sigma fun _ : Text => List (ObjectFrame × Nat)))
    (initial final : List FrameWithInlines) (done : resolveGroups services groups initial = .ok final)
    (position : Nat) (absent : ∀ group ∈ groups, ∀ entry ∈ group.2, entry.2 ≠ position) :
    final[position]? = initial[position]? := by
  induction groups generalizing initial with
  | nil => rw [Except.ok.inj done]
  | cons group rest ih =>
    rw [ih _ (resolveGroups_cons services _ _ rest initial final done)
        (fun group member => absent group (List.mem_cons_of_mem _ member)),
      resolveGroup_other services _ _ _ _ (absent group List.mem_cons_self)]

theorem resolveGroups_entry (frames : List ObjectFrame)
    (groups : List (Sigma fun _ : Text => List (ObjectFrame × Nat)))
    (collated : ∀ group ∈ groups, group.2 = entriesOf ObjectFrame.objectPath frames group.1)
    (distinct : groups.Pairwise fun group later => group.1 ≠ later.1)
    (initial final : List FrameWithInlines)
    (fresh : ∀ group ∈ groups, ∀ entry ∈ group.2, initial[entry.2]? = some nullEntry)
    (done : resolveGroups services groups initial = .ok final)
    (group : Sigma fun _ : Text => List (ObjectFrame × Nat)) (listed : group ∈ groups)
    (position : Nat) (dlframe : ObjectFrame) (member : (dlframe, position) ∈ group.2) :
    ∃ entry, final[position]? = some entry ∧ Outcome services frames position dlframe entry := by
  induction groups generalizing initial with
  | nil => cases listed
  | cons head rest ih =>
    obtain ⟨objectName, entries⟩ := head
    have after := resolveGroups_cons services _ _ rest initial final done
    obtain rfl : entries = entriesOf ObjectFrame.objectPath frames objectName := collated _ List.mem_cons_self
    -- the groups have no cell in common
    have apart : ∀ later ∈ rest, ∀ entry ∈ later.2, ∀ own ∈ entriesOf ObjectFrame.objectPath frames objectName,
        own.2 ≠ entry.2 := by
      rintro ⟨other, cells⟩ within ⟨input, cell⟩ among ⟨input', cell'⟩ own same
      obtain rfl : cells = entriesOf ObjectFrame.objectPath frames other :=
        collated _ (List.mem_cons_of_mem _ within)
      obtain rfl : cell' = cell := same
      have there := (mem_entriesOf ..).mp among
      have here := (mem_entriesOf ..).mp own
      obtain rfl := Option.some.inj (here.1.symm.trans there.1)
      exact (List.pairwise_cons.mp distinct).1 _ within (here.2.symm.trans there.2)
    rcases List.mem_cons.mp listed with rfl | within
    · rw [resolveGroups_other services rest _ final after position fun later within entry among =>
        (apart later within entry among _ member).symm]
      exact resolveGroup_entry services frames objectName initial (fresh _ List.mem_cons_self) position dlframe member
    · refine ih (fun group within => collated group (List.mem_cons_of_mem _ within))
        (List.pairwise_cons.mp distinct).2 _ (fun later within entry among => ?_) after within
      rw [resolveGroup_other services _ _ _ _ (apart later within entry among)]
      exact fresh later (List.mem_cons_of_mem _ within) entry among

theorem reaches_iff (frames : List ObjectFrame) (position : Nat) :
    Reaches (resolveJitEntry services) nullEntry (entriesOf ObjectFrame.objectPath frames []) position ↔
      ∀ earlier other, frames[earlier]? = some other → other.objectPath = [] → earlier < position →
        ¬ JitLookupThrows services earlier other := by
  constructor
  · intro reached earlier other found empty before
    have member := (mem_entriesOf ObjectFrame.objectPath frames [] other earlier).mpr ⟨found, empty⟩
    exact (resolveJitEntry_succeeds_iff ..).mp (reached _ member before)
  · rintro answers ⟨other, earlier⟩ member before
    obtain ⟨found, empty⟩ := (mem_entriesOf ..).mp member
    exact (resolveJitEntry_succeeds_iff ..).mpr (answers earlier other found empty before)

theorem basicInfo_marked (dlframe : ObjectFrame) : Marked (basicInfo dlframe) :=
  ⟨rfl, fun _ member => nomatch member⟩

theorem Settled.filled {dlframe : ObjectFrame} {entry : FrameWithInlines} (settled : Settled dlframe entry) :
    Marked (fillBasicInfo dlframe entry) ∧
      (fillBasicInfo dlframe entry).frame.rawAddress = dlframe.rawAddress := by
  rw [fillBasicInfo]
  split
  · exact ⟨basicInfo_marked dlframe, rfl⟩
  next differs => exact ⟨settled.marked, settled.addressed.resolve_left differs⟩

/-- A frame named by a JIT object is no longer the null frame, and keeps its address, which is 0. -/
theorem fillBasicInfo_named (position : Nat) (dlframe : ObjectFrame)
    (named : JitObjectNames services position dlframe) :
    Marked (fillBasicInfo dlframe (resolveJitEntry services position dlframe nullEntry).1) ∧
      (fillBasicInfo dlframe (resolveJitEntry services position dlframe nullEntry).1).frame.rawAddress = 0 := by
  obtain ⟨symbol, nonempty, stored⟩ := resolveJitEntry_named services position dlframe named
  have differs : ¬ (namedEntry symbol).frame.equals nullFrame = true := by
    simp [StacktraceFrame.equals, namedEntry, nullFrame, nonempty]
  rw [stored, fillBasicInfo, if_neg differs]
  exact ⟨⟨rfl, fun _ member => nomatch member⟩, rfl⟩

theorem Outcome.filled {frames : List ObjectFrame} {position : Nat} {dlframe : ObjectFrame}
    {entry : FrameWithInlines} (outcome : Outcome services frames position dlframe entry) :
    Marked (fillBasicInfo dlframe entry) ∧
      ((fillBasicInfo dlframe entry).frame.rawAddress = dlframe.rawAddress ↔
        (dlframe.objectPath = [] → NamedByJitObject services frames position dlframe →
          dlframe.rawAddress = 0)) := by
  have blank := (nullEntry_settled dlframe).filled
  by_cases empty : dlframe.objectPath = []
  · by_cases named : NamedByJitObject services frames position dlframe
    -- the JIT lookup wrote the symbol only, so the refill passes the entry over
    · have reached := (reaches_iff services frames position).mpr named.1
      obtain rfl := outcome.reached empty reached
      obtain ⟨marked, zero⟩ := fillBasicInfo_named services position dlframe named.2
      refine ⟨marked, ?_⟩
      rw [zero]
      exact ⟨fun same _ _ => same.symm, fun zero => (zero empty named).symm⟩
    · have kept : entry = nullEntry := by
        by_cases reached : Reaches (resolveJitEntry services) nullEntry
            (entriesOf ObjectFrame.objectPath frames []) position
        · have unnamed : ¬ JitObjectNames services position dlframe := fun names =>
            named ⟨(reaches_iff services frames position).mp reached, names⟩
          rw [outcome.reached empty reached, resolveJitEntry_unnamed services position dlframe unnamed]
        · exact outcome.unreached empty reached
      subst kept
      exact ⟨blank.1, fun _ _ names => absurd names named, fun _ => blank.2⟩
  · have settled := (outcome.withObject empty).filled
    exact ⟨settled.1, fun _ none => absurd none empty, fun _ => settled.2⟩

theorem resolveGroups_outcome (frames : List ObjectFrame) (collated : CollatedFrames frames)
    (final : List FrameWithInlines)
    (done : resolveGroups services collated.groups (List.replicate frames.length nullEntry) = .ok final)
    (position : Nat) (dlframe : ObjectFrame) (found : frames[position]? = some dlframe) :
    ∃ entry, final[position]? = some entry ∧ Outcome services frames position dlframe entry := by
  have grouped : ∀ group ∈ collated.groups, group.2 = entriesOf ObjectFrame.objectPath frames group.1 :=
    fun _ listed => collated.entries_eq listed
  refine resolveGroups_entry services frames collated.groups grouped collated.keys_distinct _ final ?_ done
    ⟨dlframe.objectPath, _⟩ (collated.exists_group (List.mem_of_getElem? found)) position dlframe
    ((mem_entriesOf ..).mpr ⟨found, rfl⟩)
  rintro group listed ⟨input, cell⟩ member
  rw [grouped group listed] at member
  have bound := (List.getElem?_eq_some_iff.mp ((mem_entriesOf ..).mp member).1).1
  exact List.getElem?_replicate_of_lt bound

/-- A resolved trace has each frame's address in its place, unless a JIT object named the frame. -/
theorem resolveFrames_addresses_iff (frames : List ObjectFrame) (collated : CollatedFrames frames)
    (resolved : List StacktraceFrame) (done : resolveFrames services frames collated = .ok resolved) :
    callAddresses resolved = frames.map ObjectFrame.rawAddress ↔
      ∀ position dlframe, frames[position]? = some dlframe → dlframe.objectPath = [] →
        NamedByJitObject services frames position dlframe → dlframe.rawAddress = 0 := by
  simp only [resolveFrames] at done
  cases run : resolveGroups services collated.groups (List.replicate frames.length nullEntry) with
  | error exception => simp [run, bind, Except.bind] at done
  | ok final =>
    simp only [run, bind, Except.bind, pure, Except.pure, Except.ok.injEq] at done
    have outcome := resolveGroups_outcome services frames collated final run
    have filled : ∀ position dlframe, frames[position]? = some dlframe →
        ∃ entry, (List.zipWith fillBasicInfo frames final)[position]? = some (fillBasicInfo dlframe entry) ∧
          Outcome services frames position dlframe entry := fun position dlframe found => by
      obtain ⟨entry, there, outcome⟩ := outcome position dlframe found
      exact ⟨entry, by simp [List.getElem?_zipWith, found, there], outcome⟩
    -- every frame that is not an inline is counted once, in its place
    have marked : ∀ entry ∈ List.zipWith fillBasicInfo frames final, Marked entry := by
      intro entry member
      obtain ⟨position, bound, rfl⟩ := List.mem_iff_getElem.mp member
      have inside : position < frames.length := by
        rw [List.length_zipWith] at bound; omega
      obtain ⟨other, there, outcome⟩ := filled position _ (List.getElem?_eq_getElem inside)
      rw [List.getElem?_eq_getElem bound, Option.some.injEq] at there
      rw [there]
      exact outcome.filled.1
    rw [← done, callAddresses_flattenInlines _ marked, List.ext_getElem?_iff]
    refine forall_congr' fun position => ?_
    simp only [List.getElem?_map]
    cases found : frames[position]? with
    | none => simp [List.getElem?_zipWith, found]
    | some dlframe =>
      obtain ⟨entry, there, outcome⟩ := filled position dlframe found
      simp only [there, Option.map_some, Option.some.injEq, forall_eq']
      exact outcome.filled.2

end

/-- A process with one JIT object, at 0x1000, and no debug information. -/
def jitServices : Services Unit where
  shouldAbsorbTraceExceptions := true
  lookupJitObject _ _ := .ok (some ⟨⟨fun _ _ => .ok (some "jitted".toList)⟩, 0x1000⟩)
  openObjectCached _ := .ok none
  getResolver _ := .error ()

def jitTrace : List ObjectFrame := [⟨0x1010, 0, []⟩, ⟨0x500020, 0x20, "a.out".toList⟩]

theorem resolveFrames_jit :
    resolveFrames jitServices jitTrace (collateFrames jitTrace) =
      .ok [⟨0, 0, .null, .null, [], "jitted".toList, false⟩,
        ⟨0x500020, 0x20, .null, .null, "a.out".toList, [], false⟩] := by
  rfl

theorem resolveFrames_addresses_iff_at_jit :
    callAddresses [⟨0, 0, .null, .null, [], "jitted".toList, false⟩,
        ⟨0x500020, 0x20, .null, .null, "a.out".toList, [], false⟩] = jitTrace.map ObjectFrame.rawAddress ↔
      ∀ position dlframe, jitTrace[position]? = some dlframe → dlframe.objectPath = [] →
        NamedByJitObject jitServices jitTrace position dlframe → dlframe.rawAddress = 0 :=
  resolveFrames_addresses_iff jitServices jitTrace (collateFrames jitTrace) _ resolveFrames_jit

theorem resolveFrames_addresses_fails :
    ∃ resolved, resolveFrames jitServices jitTrace (collateFrames jitTrace) = .ok resolved ∧
      callAddresses resolved ≠ jitTrace.map ObjectFrame.rawAddress :=
  ⟨_, resolveFrames_jit, by decide⟩

end Cpptrace.Symbols.Libdwarf
