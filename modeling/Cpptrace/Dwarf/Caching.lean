import Cpptrace.Dwarf.DwarfResolver

/-! What a resolver gives apart from its caches.

The caches of the resolvers of an object are sound as long as they hold what is
computed from the object alone. Every command of a resolver then gives what it
gives without caches, and leaves them sound.
-/

set_option autoImplicit false

namespace Cpptrace.Dwarf

open Cpptrace.Library Cpptrace.Utils

def Raised {α : Type} (outcome : Except Exception α) : Except ResolverFailure α :=
  outcome.mapError fun exception => .cache (.exception exception)

def ofFuel {α : Type} : Option (Except Exception α) → Except ResolverFailure α
  | none => .error .outOfFuel
  | some outcome => Raised outcome

section Uncached

variable (rangeSorter : RangeSorter) (lineSorter : LineSorter)

def cuMap (file : DebugFile) (skeletons : List Skeleton) : Except Exception (RangeMap CompileUnit) := do
  let cache ← walkCompilationUnits (cacheUnitUnder skeletons) file.units .empty
  return cache.finalize rangeSorter

namespace Uncached

def searchCu (mode : CacheMode) (own : ResolverObject) (skeletons : List Skeleton) (pc : FramePtr) :
    Except Exception (Option CompileUnit) :=
  if mode = .prioritizeMemory then walkCompilationUnits (matchUnitUnder skeletons pc) own.file.units none
  else do
    let cache ← cuMap rangeSorter own.file skeletons
    return checkedLookup cache pc (coversPc skeletons pc)

def lookupCu (mode : CacheMode) (own : ResolverObject) (skeletons : List Skeleton) (pc : FramePtr) :
    Except ResolverFailure (Option CompileUnit) := do
  match ← Raised (if skeletons.isEmpty then own.file.arange pc else pure none) with
  | some cu => return some cu
  | none => Raised (searchCu rangeSorter mode own skeletons pc)

def retrieveLineInfo (mode : CacheMode) :
    List Skeleton → ResolverObject → CompileUnit → FramePtr → StacktraceFrame → Except ResolverFailure StacktraceFrame
  | [], own, cu, pc, frame =>
      (lineAnswerAlone lineSorter own.file.srclines ⟨mode, cu.offset, pc, frame⟩).mapError .cache
  | skeleton :: skeletons, _, _, pc, frame => retrieveLineInfo mode skeletons skeleton.resolver skeleton.cuDie pc frame

def srcfilesThrough : List Skeleton → ResolverObject → CompileUnit → Except Exception (List Text)
  | [], own, cu => own.file.srcfiles cu.offset
  | skeleton :: skeletons, _, _ => srcfilesThrough skeletons skeleton.resolver skeleton.cuDie

def tableVersion (file : DebugFile) (cu : CompileUnit) : Except Exception (Option Nat) :=
  (usableProgram file.srclines cu.offset).map fun found => found.map LineProgram.version

def inlineResolver (mode : CacheMode) (own : ResolverObject) (skeletons : List Skeleton) : Resolver where
  getLineTable := tableVersion own.file
  srcfiles cu := own.file.srcfiles cu.offset
  cacheMode := mode
  skeleton :=
    match skeletons with
    | [] => none
    | skeleton :: rest =>
        some ⟨skeleton.cuDie, tableVersion skeleton.resolver.file, srcfilesThrough rest skeleton.resolver⟩
  subprogramSymbol := own.file.subprogramSymbol
  getUnsignedAttribute := own.file.getUnsignedAttribute

def getInlinesInfo (mode : CacheMode) (own : ResolverObject) (skeletons : List Skeleton) (cu : CompileUnit)
    (pc : FramePtr) (fuel : Nat) (die : Die) : Except ResolverFailure (List StacktraceFrame) :=
  ofFuel ((inlineResolver mode own skeletons).getInlinesInfo cu pc fuel die [])

def findSubprogram (options : Options) (cu : CompileUnit) (pc : FramePtr) : Except Exception (Option Die) :=
  if options.cacheMode = .prioritizeMemory then pure (retrieveSymbolWalk cu pc [cu.die])
  else do
    let map ← subprogramMap rangeSorter cu
    return checkedLookup map pc fun die => pcInDie cu die pc

def retrieveSymbolForSubprogram (options : Options) (own : ResolverObject) (skeletons : List Skeleton)
    (cu : CompileUnit) (pc : FramePtr) (fuel : Nat) (die : Die) (frame : StacktraceFrame) :
    Except ResolverFailure FrameWithInlines := do
  Raised (assertImpl (die.tag = .subprogram) .assert "die.get_tag() == DW_TAG_subprogram" none)
  let name ← Raised (own.file.subprogramSymbol die)
  let inlines ← if options.resolveInlinedCalls then getInlinesInfo options.cacheMode own skeletons cu pc fuel die
    else pure []
  return ⟨{ frame with symbol := name }, inlines⟩

def retrieveSymbol (options : Options) (own : ResolverObject) (skeletons : List Skeleton) (cu : CompileUnit)
    (pc : FramePtr) (fuel : Nat) (frame : StacktraceFrame) : Except ResolverFailure FrameWithInlines := do
  match ← Raised (findSubprogram rangeSorter options cu pc) with
  | none => return ⟨frame, []⟩
  | some die => retrieveSymbolForSubprogram options own skeletons cu pc fuel die frame

variable (files : Text → DebugFile)

def performDwarfFissionResolution
    (resolveFrame : ResolverObject → List Skeleton → Except ResolverFailure FrameWithInlines)
    (own : ResolverObject) (skeletons : List Skeleton) (cu : CompileUnit) (dwoName : Option Text)
    (frame : StacktraceFrame) : Except ResolverFailure FrameWithInlines := do
  match dwoName with
  | none => return ⟨frame, []⟩
  | some name =>
      let compDir ← Raised (own.file.compDir cu)
      match dwoPath name compDir with
      | none => return ⟨frame, []⟩
      | some path =>
          Raised (files path).construct
          resolveFrame ⟨cu.offset :: own.path, files path⟩ (⟨cu, own⟩ :: skeletons)

def resolveFrame (options : Options) (frameInfo : ObjectFrame) :
    Nat → ResolverObject → List Skeleton → Except ResolverFailure FrameWithInlines
  | 0, _, _ => throw .outOfFuel
  | fuel + 1, own, skeletons =>
      if own.file.ok then do
        let pc := frameInfo.objectAddress
        match ← lookupCu rangeSorter options.cacheMode own skeletons pc with
        | none => return ⟨startFrame frameInfo, []⟩
        | some cu =>
            let dwoName ← Raised (own.file.getDwoName cu)
            if cu.die.tag = .skeletonUnit ∨ (dwoName.isSome ∧ skeletons.isEmpty) then
              performDwarfFissionResolution files (resolveFrame options frameInfo fuel) own skeletons cu dwoName
                (startFrame frameInfo)
            else do
              let frame ← retrieveLineInfo lineSorter options.cacheMode skeletons own cu pc (startFrame frameInfo)
              retrieveSymbol rangeSorter options own skeletons cu pc fuel frame
      else return basicFrame frameInfo

end Uncached

end Uncached

section Soundness

variable (rangeSorter : RangeSorter) (lineSorter : LineSorter) (bound : Option ℕ+) (files : Text → DebugFile)
  (root : DebugFile)

/-- The object of the split unit that a unit names, if a resolver for it can be constructed. -/
def dwoFile (file : DebugFile) (cu : CompileUnit) : Option DebugFile :=
  match file.getDwoName cu, file.compDir cu with
  | .ok (some name), .ok compDir =>
      (dwoPath name compDir).bind fun path =>
        match (files path).construct with
        | .ok () => some (files path)
        | .error _ => none
  | _, _ => none

def located : ResolverPath → Option (DebugFile × List Skeleton)
  | [] => some (root, [])
  | offset :: path =>
      match located path with
      | none => none
      | some (file, skeletons) =>
          match file.units.find? fun cu => cu.offset = offset with
          | none => none
          | some cu => (dwoFile files file cu).map fun split => (split, ⟨cu, path, file⟩ :: skeletons)

/-- Kept line tables. If speed is prioritized, all of them have entries. -/
def SoundTables (mode : CacheMode) (srclines : Nat → Except Exception Srclines)
    (lineTables : LruCache Nat LineTableInfo) : Prop :=
  ∃ tables, Keeps lineSorter srclines lineTables tables ∧
    (mode = .prioritizeSpeed → ∀ offset built, tables.stored offset = some built → built = true)

/-- What the caches of a resolver hold is what its object gives. -/
structure SoundCaches (mode : CacheMode) (file : DebugFile) (skeletons : List Skeleton) (caches : Caches) : Prop where
  units : if caches.generatedCuCache then cuMap rangeSorter file skeletons = .ok caches.cuCache
    else caches.cuCache = .empty
  tables : SoundTables lineSorter mode file.srclines caches.lineTables
  subprograms : ∀ cu ∈ file.units, ∀ map, caches.subprogramsCache cu.offset = some map →
    subprogramMap rangeSorter cu = .ok map
  srcfiles : ∀ offset names, caches.srcfilesCache offset = some names → file.srcfiles offset = .ok names

structure SoundResolvers (mode : CacheMode) (state : Resolvers) : Prop where
  known : ∀ path, (state path).isSome → (located files root path).isSome
  caches : ∀ path file skeletons, located files root path = some (file, skeletons) →
    SoundCaches rangeSorter lineSorter mode file skeletons (Resolving.readCaches bound path state)

def Placed (own : ResolverObject) (skeletons : List Skeleton) : Prop :=
  located files root own.path = some (own.file, skeletons)

end Soundness

/-- Speed is prioritized later only if it was before. -/
def MayPrecede (mode later : CacheMode) : Prop := later = .prioritizeSpeed → mode = .prioritizeSpeed

section LineTables

variable {lineSorter : LineSorter} {srclines : Nat → Except Exception Srclines} {mode : CacheMode}

theorem soundTables_new (bound : Option ℕ+) : SoundTables lineSorter mode srclines ⟨[], ∅, bound.map (↑), 0⟩ :=
  ⟨_, keeps_empty lineSorter srclines bound, fun _ _ _ known => nomatch known⟩

theorem SoundTables.change {later : CacheMode} {lineTables : LruCache Nat LineTableInfo}
    (sound : SoundTables lineSorter mode srclines lineTables) (stays : MayPrecede mode later) :
    SoundTables lineSorter later srclines lineTables := by
  obtain ⟨tables, keeps, built⟩ := sound
  exact ⟨tables, keeps, fun speed => built (stays speed)⟩

theorem built_tablesWith {tables : RecencyMap Nat Bool}
    (built : mode = .prioritizeSpeed → ∀ offset built, tables.stored offset = some built → built = true) (asked : Nat) :
    mode = .prioritizeSpeed → ∀ offset built, (tablesWith mode asked tables).stored offset = some built →
      built = true := by
  intro speed offset value known
  rw [tablesWith] at known
  split at known
  · exact built speed offset value known
  · simp only [RecencyMap.store] at known
    by_cases same : offset = asked
    · subst same
      rw [Function.update_self, Option.some.injEq, decide_eq_true speed] at known
      exact known.symm
    · rw [Function.update_of_ne same] at known
      exact built speed offset value known

theorem lineSpec_snd (query : LineQuery) (tables : RecencyMap Nat Bool) :
    (lineSpec lineSorter srclines query tables).2 = tables ∨
      (lineSpec lineSorter srclines query tables).2 = tablesWith query.mode query.offset tables := by
  rw [lineSpec, tablesWith]
  cases usableProgram srclines query.offset with
  | error exception => exact .inl rfl
  | ok found =>
    cases found with
    | none => exact .inl rfl
    | some program =>
      right
      dsimp only
      split <;> rfl

theorem computes_retrieveLineInfo (offset : Nat) (pc : FramePtr) (frame : StacktraceFrame) :
    Computes (SoundTables lineSorter mode srclines) (retrieveLineInfo lineSorter srclines mode offset pc frame)
      (lineAnswerAlone lineSorter srclines ⟨mode, offset, pc, frame⟩) := by
  refine computes_iff.mpr fun lineTables sound => ?_
  obtain ⟨tables, keeps, built⟩ := sound
  let query : LineQuery := ⟨mode, offset, pc, frame⟩
  obtain ⟨same, next⟩ := lineStep_simulates query lineTables tables keeps
  constructor
  · refine same.trans ((lineSpec_alone_iff lineSorter srclines query tables).mpr fun stale => ?_)
    obtain ⟨speed, member, unbuilt, -⟩ := stale
    obtain ⟨_, _, value, _, known, -⟩ := keeps.exists_program member
    exact unbuilt (known.trans (congrArg some (built speed _ value known)))
  · refine ⟨_, next, ?_⟩
    rcases lineSpec_snd query tables with unchanged | changed
    · rw [unchanged]
      exact built
    · rw [changed]
      exact built_tablesWith built offset

theorem computes_tableVersion (offset : Nat) :
    Computes (SoundTables lineSorter mode srclines)
      (do let table ← getLineTable lineSorter srclines mode offset; return table.map LineTableInfo.version)
      (((usableProgram srclines offset).map fun found => found.map LineProgram.version).mapError .exception) := by
  refine computes_iff.mpr fun lineTables sound => ?_
  obtain ⟨tables, keeps, built⟩ := sound
  have ran := keeps.getLineTable mode offset
  rw [Command.bind_apply]
  cases usable : usableProgram srclines offset with
  | error exception =>
    rw [usable] at ran
    rw [ran]
    exact ⟨rfl, tables, keeps, built⟩
  | ok found =>
    cases found with
    | none =>
      rw [usable] at ran
      rw [ran]
      exact ⟨rfl, tables, keeps, built⟩
    | some program =>
      rw [usable] at ran
      obtain ⟨node, rest, next, got, front, key, kept⟩ := ran
      obtain ⟨value, known, program', usable', version, -⟩ := kept.front front
      rw [key, usable, Except.ok.injEq, Option.some.injEq] at usable'
      rw [got]
      exact ⟨by simp [usable', version, Except.map, Except.mapError], _, kept, built_tablesWith built offset⟩

end LineTables

section Placing

variable {rangeSorter : RangeSorter} {lineSorter : LineSorter} {bound : Option ℕ+} {files : Text → DebugFile}
  {root : DebugFile} {mode : CacheMode}

theorem soundCaches_new (file : DebugFile) (skeletons : List Skeleton) :
    SoundCaches rangeSorter lineSorter mode file skeletons (.new bound) where
  units := rfl
  tables := soundTables_new bound
  subprograms _ _ _ known := nomatch known
  srcfiles _ _ known := nomatch known

theorem soundResolvers_none : SoundResolvers rangeSorter lineSorter bound files root mode fun _ => none where
  known _ exists_ := nomatch exists_
  caches _ file skeletons _ := soundCaches_new file skeletons

theorem SoundResolvers.write {state : Resolvers}
    (sound : SoundResolvers rangeSorter lineSorter bound files root mode state)
    {own : ResolverObject} {skeletons : List Skeleton} (placed : Placed files root own skeletons) {caches : Caches}
    (kept : SoundCaches rangeSorter lineSorter mode own.file skeletons caches) :
    SoundResolvers rangeSorter lineSorter bound files root mode (Resolving.writeCaches own.path state caches) := by
  constructor
  · intro path present
    by_cases same : path = own.path
    · subst same
      rw [placed]
      rfl
    · rw [Resolving.writeCaches, Function.update_of_ne same] at present
      exact sound.known path present
  · intro path file skeletons' found
    rw [Resolving.readCaches, Resolving.writeCaches]
    by_cases same : path = own.path
    · subst same
      rw [placed, Option.some.injEq, Prod.mk.injEq] at found
      obtain ⟨rfl, rfl⟩ := found
      rw [Function.update_self]
      exact kept
    · rw [Function.update_of_ne same]
      exact sound.caches path file skeletons' found

/-- What a command on the caches of a resolver computes, it computes among the resolvers. -/
theorem computes_onCaches {α : Type} {own : ResolverObject} {skeletons : List Skeleton}
    (placed : Placed files root own skeletons) {command : Command ResolverFailure Caches α}
    {fresh : Except ResolverFailure α}
    (valid : Computes (SoundCaches rangeSorter lineSorter mode own.file skeletons) command fresh) :
    Computes (SoundResolvers rangeSorter lineSorter bound files root mode)
      (Resolving.onCaches bound own.path command) fresh :=
  valid.onPart (fun _ sound => sound.caches own.path own.file skeletons placed)
    fun _ _ sound kept => sound.write placed kept

theorem computes_lift {σ α : Type} {sound : σ → Prop} (outcome : Except Exception α) :
    Computes sound (MonadExcept.ofExcept (Raised outcome)) (Raised outcome) := .ofExcept _

theorem computes_onLineTables {α : Type} {file : DebugFile} {skeletons : List Skeleton}
    {command : Cache Nat LineTableInfo α} {fresh : Except CacheFailure α}
    (valid : Computes (SoundTables lineSorter mode file.srclines) command fresh) :
    Computes (SoundCaches rangeSorter lineSorter mode file skeletons) (Resolving.onLineTables command)
      (fresh.mapError .cache) := by
  refine computes_iff.mpr fun caches sound => ?_
  obtain ⟨same, kept⟩ := computes_iff.mp valid _ sound.tables
  rw [Resolving.onLineTables, same]
  exact ⟨rfl, sound.units, kept, sound.subprograms, sound.srcfiles⟩

theorem Placed.skeleton {own : ResolverObject} {skeleton : Skeleton} {skeletons : List Skeleton}
    (placed : Placed files root own (skeleton :: skeletons)) : Placed files root skeleton.resolver skeletons := by
  rw [Placed] at placed
  cases path : own.path with
  | nil =>
    rw [path, located, Option.some.injEq, Prod.mk.injEq] at placed
    cases placed.2
  | cons offset path' =>
    rw [path, located] at placed
    cases parent : located files root path' with
    | none =>
      rw [parent] at placed
      cases placed
    | some found =>
      rw [parent] at placed
      dsimp only at placed
      cases unit : found.1.units.find? fun cu => decide (cu.offset = offset) with
      | none =>
        rw [unit] at placed
        cases placed
      | some cu =>
        rw [unit, Option.map_eq_some_iff] at placed
        obtain ⟨split, _, same⟩ := placed
        rw [Prod.mk.injEq, List.cons.injEq] at same
        obtain ⟨-, rfl, rfl⟩ := same
        exact parent

theorem DebugFile.find_offset (file : DebugFile) {cu : CompileUnit} (member : cu ∈ file.units) :
    (file.units.find? fun other => other.offset = cu.offset) = some cu := by
  have apart := file.offsets
  generalize file.units = units at member apart
  induction units with
  | nil => cases member
  | cons first rest ih =>
    obtain ⟨differs, apart⟩ := List.pairwise_cons.mp apart
    rcases List.mem_cons.mp member with rfl | later
    · rw [List.find?_cons_of_pos (by simp)]
    · rw [List.find?_cons_of_neg (by simpa using differs cu later)]
      exact ih later apart

theorem Placed.split {own : ResolverObject} {skeletons : List Skeleton} (placed : Placed files root own skeletons)
    {cu : CompileUnit} (member : cu ∈ own.file.units) {name : Text} {compDir : Option Text} {path : Text}
    (named : own.file.getDwoName cu = .ok (some name)) (directory : own.file.compDir cu = .ok compDir)
    (leads : dwoPath name compDir = some path) :
    located files root (cu.offset :: own.path) =
      match (files path).construct with
      | .ok () => some (files path, ⟨cu, own⟩ :: skeletons)
      | .error _ => none := by
  rw [located, placed]
  dsimp only
  rw [own.file.find_offset member]
  dsimp only
  rw [dwoFile, named, directory]
  dsimp only
  rw [leads, Option.bind_some]
  cases (files path).construct <;> rfl

end Placing

section Raising

variable {α β : Type}

theorem raised_bind (outcome : Except Exception α) (next : α → Except Exception β) :
    Raised (outcome >>= next) = Raised outcome >>= fun value => Raised (next value) := by
  cases outcome <;> rfl

theorem raised_eq_ok_iff (outcome : Except Exception α) (value : α) :
    Raised outcome = .ok value ↔ outcome = .ok value := by
  cases outcome <;> simp [Raised, Except.mapError]

theorem mapError_cache (outcome : Except Exception α) :
    (outcome.mapError CacheFailure.exception).mapError ResolverFailure.cache = Raised outcome := by
  cases outcome <;> rfl

variable {σ Entry State : Type} {sound : σ → Prop}

theorem computes_walkSiblingsM {fn : Entry → State → Command ResolverFailure σ (Bool × State)}
    {fresh : Entry → State → Except Exception (Bool × State)}
    (each : ∀ entry state, Computes sound (fn entry state) (Raised (fresh entry state))) (entries : List Entry)
    (state : State) : Computes sound (walkSiblingsM fn entries state) (Raised (walkSiblings fresh entries state)) := by
  induction entries generalizing state with
  | nil => exact .pure _
  | cons entry rest ih =>
    rw [walkSiblingsM, walkSiblings, raised_bind]
    refine (each entry state).bind fun answer _ => ?_
    obtain ⟨goOn, next⟩ := answer
    cases goOn with
    | false => exact .pure _
    | true => exact ih next

theorem computes_walkDieListM {fn : Entry → State → Command ResolverFailure σ (Bool × State)}
    {fresh : Entry → State → Except Exception (Bool × State)}
    (each : ∀ entry state, Computes sound (fn entry state) (Raised (fresh entry state))) (first : Entry)
    (siblings : List Entry) (state : State) :
    Computes sound (walkDieListM fn first siblings state) (Raised (walkDieList fresh first siblings state)) := by
  rw [walkDieListM, walkDieList, raised_bind]
  refine (each first state).bind fun answer _ => ?_
  obtain ⟨goOn, next⟩ := answer
  cases goOn with
  | false => exact .pure _
  | true => exact computes_walkSiblingsM each siblings next

end Raising

section Units

variable {rangeSorter : RangeSorter} {lineSorter : LineSorter} {mode : CacheMode}

theorem RangeMap.addRanges_items {V : Type} {map next : RangeMap V} {item : V} {ranges : List Range}
    (added : map.addRanges item ranges = .ok next) : next.items = map.items ∨ next.items = map.items ++ [item] := by
  rw [RangeMap.addRanges] at added
  split at added
  · exact .inl (congrArg RangeMap.items (Except.ok.inj added)).symm
  · right
    rw [RangeMap.addItem] at added
    obtain ⟨⟨handle, larger⟩, extended, inserted⟩ := (Outcome.bind_eq_ok_iff ..).mp added
    obtain ⟨-, -, made⟩ := (Outcome.bind_eq_ok_iff ..).mp extended
    cases made
    rw [← Except.ok.inj inserted, RangeMap.foldl_insert]

theorem items_cacheUnitUnder (skeletons : List Skeleton) (units : List CompileUnit) {start cache : RangeMap CompileUnit}
    (walked : walkCompilationUnits (cacheUnitUnder skeletons) units start = .ok cache) :
    ∀ cu ∈ cache.items, cu ∈ start.items ∨ cu ∈ units := by
  induction units generalizing start with
  | nil =>
    cases walked
    exact fun cu member => .inl member
  | cons unit rest ih =>
    rw [walkCompilationUnits_cons] at walked
    obtain ⟨⟨goOn, next⟩, cached, walked⟩ := (Outcome.bind_eq_ok_iff ..).mp walked
    obtain ⟨added, known, same⟩ := (Outcome.bind_eq_ok_iff ..).mp cached
    cases same
    intro cu member
    rcases ih walked cu member with before | later
    · rcases RangeMap.addRanges_items known with kept | extended
      · exact .inl (kept ▸ before)
      · rw [extended, List.mem_append, List.mem_singleton] at before
        rcases before with first | rfl
        · exact .inl first
        · exact .inr List.mem_cons_self
    · exact .inr (List.mem_cons_of_mem _ later)

theorem walkCompilationUnits_matchUnitUnder (skeletons : List Skeleton) (pc : FramePtr) (units : List CompileUnit)
    (info : Option CompileUnit) :
    walkCompilationUnits (matchUnitUnder skeletons pc) units info =
      .ok ((units.reverse.find? fun cu => coversPc skeletons pc cu).or info) := by
  induction units generalizing info with
  | nil => rfl
  | cons cu rest ih =>
    rw [walkCompilationUnits_cons, matchUnitUnder]
    by_cases covers : coversPc skeletons pc cu = true
    · rw [if_pos covers]
      simp [pure, Except.pure, bind, Except.bind, ih, List.find?_append, covers]
    · rw [if_neg covers]
      simp [pure, Except.pure, bind, Except.bind, ih, List.find?_append, covers]

theorem checkedLookup_mem {V : Type} {map : RangeMap V} {pc : FramePtr} {covers : V → Bool} {item : V}
    (found : checkedLookup map pc covers = some item) : item ∈ map.items ∧ covers item = true := by
  rw [checkedLookup] at found
  cases looked : map.lookup pc with
  | none =>
    rw [looked] at found
    cases found
  | some other =>
    rw [looked] at found
    dsimp only at found
    split at found
    next holds =>
      cases found
      rw [RangeMap.lookup, Option.bind_eq_some_iff] at looked
      obtain ⟨entry, -, at_⟩ := looked
      exact ⟨List.mem_of_getElem? at_, holds⟩
    · cases found

theorem mem_of_lookupCu {own : ResolverObject} {skeletons : List Skeleton} {pc : FramePtr} {cu : CompileUnit}
    (found : Uncached.lookupCu rangeSorter mode own skeletons pc = .ok (some cu)) : cu ∈ own.file.units := by
  obtain ⟨listed, arange, rest⟩ := (Outcome.bind_eq_ok_iff ..).mp found
  rw [raised_eq_ok_iff] at arange
  cases listed with
  | some other =>
    cases rest
    split at arange
    · exact own.file.listed pc cu arange
    · cases arange
  | none =>
    rw [raised_eq_ok_iff, Uncached.searchCu] at rest
    split at rest
    · rw [walkCompilationUnits_matchUnitUnder, Option.or_none, Except.ok.injEq] at rest
      exact List.mem_reverse.mp (List.mem_of_find?_eq_some rest)
    · obtain ⟨cache, made, looked⟩ := (Outcome.bind_eq_ok_iff ..).mp rest
      obtain ⟨start, walked, sorted⟩ := (Outcome.bind_eq_ok_iff ..).mp made
      cases sorted
      have member := (checkedLookup_mem (Except.ok.inj looked)).1
      exact (items_cacheUnitUnder skeletons own.file.units walked cu member).resolve_left List.not_mem_nil

theorem SoundCaches.lazyGenerateCuCache {file : DebugFile} {skeletons : List Skeleton} {caches : Caches}
    (sound : SoundCaches rangeSorter lineSorter mode file skeletons caches) :
    ((Dwarf.lazyGenerateCuCache rangeSorter file skeletons caches).1 =
        Raised (cuMap rangeSorter file skeletons >>= fun _ => pure ())) ∧
      SoundCaches rangeSorter lineSorter mode file skeletons
        (Dwarf.lazyGenerateCuCache rangeSorter file skeletons caches).2 ∧
      ∀ cache, cuMap rangeSorter file skeletons = .ok cache →
        (Dwarf.lazyGenerateCuCache rangeSorter file skeletons caches).2.cuCache = cache := by
  have units := sound.units
  cases generated : caches.generatedCuCache with
  | true =>
    rw [generated, if_pos rfl] at units
    -- a walk that throws sets no flag, so the next call walks again
    have ran : Dwarf.lazyGenerateCuCache rangeSorter file skeletons caches = (.ok (), caches) := by
      simp only [Dwarf.lazyGenerateCuCache, Command.bind_apply, Command.get_apply, generated, if_true,
        Command.pure_apply]
    rw [ran, units]
    exact ⟨rfl, sound, fun cache same => Except.ok.inj same⟩
  | false =>
    rw [generated, if_neg Bool.false_ne_true] at units
    cases walked : walkCompilationUnits (cacheUnitUnder skeletons) file.units .empty with
    | error exception =>
      have ran : Dwarf.lazyGenerateCuCache rangeSorter file skeletons caches =
          (.error (.cache (.exception exception)), caches) := by
        simp only [Dwarf.lazyGenerateCuCache, Command.bind_apply, Command.get_apply, generated, Bool.false_eq_true,
          if_false, Command.ofExcept_apply, units, walked, Except.mapError]
      rw [ran, cuMap, walked]
      exact ⟨rfl, sound, nofun⟩
    | ok cache =>
      have made : cuMap rangeSorter file skeletons = .ok (cache.finalize rangeSorter) := by
        rw [cuMap, walked]
        rfl
      have ran : Dwarf.lazyGenerateCuCache rangeSorter file skeletons caches =
          (.ok (), { caches with cuCache := cache.finalize rangeSorter, generatedCuCache := true }) := by
        simp only [Dwarf.lazyGenerateCuCache, Command.bind_apply, Command.get_apply, generated, Bool.false_eq_true,
          if_false, Command.ofExcept_apply, units, walked, Except.mapError, Command.modify_apply]
      rw [ran, made]
      exact ⟨rfl, ⟨made, sound.tables, sound.subprograms, sound.srcfiles⟩, fun other same => Except.ok.inj same⟩

theorem computes_searchCuCache (file : DebugFile) (skeletons : List Skeleton) (pc : FramePtr) :
    Computes (SoundCaches rangeSorter lineSorter mode file skeletons) (searchCuCache rangeSorter file skeletons pc)
      (Raised (cuMap rangeSorter file skeletons >>= fun cache =>
        pure (checkedLookup cache pc (coversPc skeletons pc)))) := by
  refine computes_iff.mpr fun caches sound => ?_
  obtain ⟨same, kept, cached⟩ := sound.lazyGenerateCuCache
  rw [searchCuCache, Command.bind_apply, same]
  cases made : cuMap rangeSorter file skeletons with
  | error exception => exact ⟨rfl, kept⟩
  | ok cache =>
    refine ⟨?_, kept⟩
    simp only [Command.bind_apply, Command.get_apply, Command.pure_apply, cached cache made]
    rfl

theorem computes_loadSrcfiles (file : DebugFile) (skeletons : List Skeleton) (offset : Nat) :
    Computes (SoundCaches rangeSorter lineSorter mode file skeletons) (loadSrcfiles file offset)
      (Raised (file.srcfiles offset)) := by
  refine computes_iff.mpr fun caches sound => ?_
  rw [loadSrcfiles, Command.bind_apply, Command.get_apply]
  dsimp only
  cases known : caches.srcfilesCache offset with
  | some names =>
    rw [sound.srcfiles offset names known]
    exact ⟨rfl, sound⟩
  | none =>
    dsimp only
    rw [Command.bind_apply, Command.ofExcept_apply]
    cases read : file.srcfiles offset with
    | error exception => exact ⟨rfl, sound⟩
    | ok names =>
      simp only [Except.mapError, Command.bind_apply, Command.modify_apply, Command.pure_apply]
      refine ⟨rfl, sound.units, sound.tables, sound.subprograms, fun asked names' found => ?_⟩
      by_cases same : asked = offset
      · subst same
        dsimp only at found
        rw [Function.update_self, Option.some.injEq] at found
        exact found ▸ read
      · dsimp only at found
        rw [Function.update_of_ne same] at found
        exact sound.srcfiles asked names' found

theorem computes_loadSubprograms {file : DebugFile} (skeletons : List Skeleton) {cu : CompileUnit}
    (member : cu ∈ file.units) :
    Computes (SoundCaches rangeSorter lineSorter mode file skeletons) (loadSubprograms rangeSorter cu)
      (Raised (subprogramMap rangeSorter cu)) := by
  refine computes_iff.mpr fun caches sound => ?_
  rw [loadSubprograms, Command.bind_apply, Command.get_apply]
  dsimp only
  cases known : caches.subprogramsCache cu.offset with
  | some map =>
    rw [sound.subprograms cu member map known]
    exact ⟨rfl, sound⟩
  | none =>
    dsimp only
    rw [Command.bind_apply, Command.ofExcept_apply]
    cases made : subprogramMap rangeSorter cu with
    -- nothing is stored when the walk throws
    | error exception => exact ⟨rfl, sound⟩
    | ok map =>
      simp only [Except.mapError, Command.bind_apply, Command.modify_apply, Command.pure_apply]
      refine ⟨rfl, sound.units, sound.tables, fun other within map' found => ?_, sound.srcfiles⟩
      by_cases same : other.offset = cu.offset
      · -- units at one offset are one unit
        have unit : other = cu := by
          have first := file.find_offset within
          rw [same, file.find_offset member] at first
          exact (Option.some.inj first).symm
        subst unit
        dsimp only at found
        rw [Function.update_self, Option.some.injEq] at found
        exact found ▸ made
      · dsimp only at found
        rw [Function.update_of_ne same] at found
        exact sound.subprograms other within map' found

end Units

section Commands

variable {rangeSorter : RangeSorter} {lineSorter : LineSorter} {bound : Option ℕ+} {files : Text → DebugFile}
  {root : DebugFile} {mode : CacheMode} {own : ResolverObject} {skeletons : List Skeleton}

theorem computes_lookupCu (placed : Placed files root own skeletons) (pc : FramePtr) :
    Computes (SoundResolvers rangeSorter lineSorter bound files root mode)
      (lookupCu rangeSorter bound mode own skeletons pc) (Uncached.lookupCu rangeSorter mode own skeletons pc) := by
  refine Follows.bind (computes_lift _) fun listed _ => ?_
  cases listed with
  | some cu => exact .pure _
  | none =>
    dsimp only
    rw [Uncached.searchCu]
    by_cases memory : mode = .prioritizeMemory
    · rw [if_pos memory, if_pos memory]
      exact computes_lift _
    · rw [if_neg memory, if_neg memory]
      exact computes_onCaches placed (computes_searchCuCache own.file skeletons pc)

theorem computes_retrieveLineInfoThrough (placed : Placed files root own skeletons) (cu : CompileUnit) (pc : FramePtr)
    (frame : StacktraceFrame) :
    Computes (SoundResolvers rangeSorter lineSorter bound files root mode)
      (retrieveLineInfoThrough lineSorter bound mode skeletons own cu pc frame)
      (Uncached.retrieveLineInfo lineSorter mode skeletons own cu pc frame) := by
  induction skeletons generalizing own cu with
  | nil => exact computes_onCaches placed (computes_onLineTables (computes_retrieveLineInfo cu.offset pc frame))
  | cons skeleton rest ih => exact ih placed.skeleton skeleton.cuDie

theorem computes_resolveFilename (placed : Placed files root own skeletons) (cu : CompileUnit) (fileI : UInt64) :
    Computes (SoundResolvers rangeSorter lineSorter bound files root mode)
      (resolveFilenameThrough bound mode skeletons own cu fileI)
      (Raised ((do
        let names ← Uncached.srcfilesThrough skeletons own cu
        if hasFile mode names fileI then srcfileAt names fileI else return []))) := by
  induction skeletons generalizing own cu with
  | nil =>
    rw [resolveFilenameThrough, Uncached.srcfilesThrough, raised_bind]
    have named : ∀ names : List Text, Computes (SoundResolvers rangeSorter lineSorter bound files root mode)
        (if hasFile mode names fileI then Resolving.lift (srcfileAt names fileI) else return [])
        (Raised (if hasFile mode names fileI then srcfileAt names fileI else return [])) := by
      intro names
      split
      · exact computes_lift _
      · exact .pure _
    split
    · exact Follows.bind (computes_lift _) fun names _ => named names
    · exact (computes_onCaches placed (computes_loadSrcfiles own.file [] cu.offset)).bind fun names _ => named names
  | cons skeleton rest ih => exact ih placed.skeleton skeleton.cuDie

theorem computes_callTableVersion (placed : Placed files root own skeletons) (cu : CompileUnit) :
    Computes (SoundResolvers rangeSorter lineSorter bound files root mode)
      (callTableVersion lineSorter bound mode own skeletons cu)
      (Raised ((Uncached.inlineResolver mode own skeletons).lineTableVersion cu)) := by
  have version : ∀ {resolver : ResolverObject} {above : List Skeleton} (cu : CompileUnit),
      Placed files root resolver above →
      Computes (SoundResolvers rangeSorter lineSorter bound files root mode)
        (Resolving.onCaches bound resolver.path (Resolving.onLineTables do
          let table ← getLineTable lineSorter resolver.file.srclines mode cu.offset
          return table.map LineTableInfo.version))
        (Raised (Uncached.tableVersion resolver.file cu)) := by
    intro resolver above cu placed
    rw [Uncached.tableVersion, ← mapError_cache]
    exact computes_onCaches placed (computes_onLineTables (computes_tableVersion cu.offset))
  cases skeletons with
  | nil => exact version cu placed
  | cons skeleton rest => exact version skeleton.cuDie placed.skeleton

theorem computes_callFile (placed : Placed files root own skeletons) (cu : CompileUnit) (die : Die) :
    Computes (SoundResolvers rangeSorter lineSorter bound files root mode)
      (callFile lineSorter bound mode own skeletons cu die)
      (Raised ((Uncached.inlineResolver mode own skeletons).callFileIndex cu die)) := by
  rw [callFile, Resolver.callFileIndex, raised_bind]
  refine Follows.bind (computes_lift _) fun fileI _ => ?_
  cases fileI with
  | none => exact .pure _
  | some fileI =>
    dsimp only
    rw [raised_bind]
    refine (computes_callTableVersion placed cu).bind fun version _ => ?_
    cases version with
    | none => exact .pure _
    | some version =>
      dsimp only
      split
      · split <;> exact .pure _
      · exact .pure _

theorem resolveFilename_inlineResolver (cu : CompileUnit) (fileI : UInt64) :
    (Uncached.inlineResolver mode own skeletons).resolveFilename cu fileI =
      do
        let names ← Uncached.srcfilesThrough skeletons own cu
        if hasFile mode names fileI then srcfileAt names fileI else return [] := by
  cases skeletons <;> rfl

theorem computes_appendInline (placed : Placed files root own skeletons) (cu : CompileUnit) (die : Die) :
    Computes (SoundResolvers rangeSorter lineSorter bound files root mode)
      (appendInline lineSorter bound mode own skeletons cu die)
      (Raised ((Uncached.inlineResolver mode own skeletons).inlineFrame cu die)) := by
  rw [appendInline, Resolver.inlineFrame, raised_bind]
  refine Follows.bind (computes_lift _) fun name _ => ?_
  rw [raised_bind]
  refine (computes_callFile placed cu die).bind fun fileI _ => ?_
  have rest : ∀ file : Text, Computes (SoundResolvers rangeSorter lineSorter bound files root mode)
      (do
        let line ← Resolving.lift (own.file.getUnsignedAttribute die .callLine)
        let col ← Resolving.lift (own.file.getUnsignedAttribute die .callColumn)
        return ⟨0, 0, ⟨(line.getD 0).toUInt32⟩, ⟨(col.getD 0).toUInt32⟩, file, name, true⟩)
      (Raised do
        let line ← (Uncached.inlineResolver mode own skeletons).getUnsignedAttribute die .callLine
        let col ← (Uncached.inlineResolver mode own skeletons).getUnsignedAttribute die .callColumn
        return (⟨0, 0, ⟨(line.getD 0).toUInt32⟩, ⟨(col.getD 0).toUInt32⟩, file, name, true⟩ : StacktraceFrame)) := by
    intro file
    rw [raised_bind]
    refine Follows.bind (computes_lift _) fun line _ => ?_
    rw [raised_bind]
    exact Follows.bind (computes_lift _) fun col _ => .pure _
  cases fileI with
  | none => exact rest []
  | some fileI =>
    dsimp only
    rw [raised_bind, resolveFilename_inlineResolver]
    exact (computes_resolveFilename placed cu fileI).bind fun file _ => rest file

theorem computes_visitInline (placed : Placed files root own skeletons) (cu : CompileUnit) (pc : FramePtr) (die : Die)
    (state : Resolver.InlinesState) :
    Computes (SoundResolvers rangeSorter lineSorter bound files root mode)
      (visitInline lineSorter bound mode own skeletons cu pc die state)
      (Raised ((Uncached.inlineResolver mode own skeletons).inlinesCallback cu pc die state)) := by
  rw [visitInline, Resolver.inlinesCallback]
  split
  · rw [raised_bind]
    exact (computes_appendInline placed cu die).bind fun frame _ => .pure _
  · split <;> exact .pure _

theorem computes_inlinesFrom (placed : Placed files root own skeletons) (cu : CompileUnit) (pc : FramePtr) (fuel : Nat)
    (die : Die) (inlines : List StacktraceFrame) :
    Computes (SoundResolvers rangeSorter lineSorter bound files root mode)
      (inlinesFrom lineSorter bound mode own skeletons cu pc fuel die inlines)
      (ofFuel ((Uncached.inlineResolver mode own skeletons).inlinesLoop cu pc fuel die inlines)) := by
  induction fuel generalizing die inlines with
  | zero => exact computes_iff.mpr fun _ sound => ⟨rfl, sound⟩
  | succ fuel ih =>
    rw [inlinesFrom, Resolver.inlinesLoop]
    cases die.children with
    | nil => exact .pure _
    | cons child siblings =>
      dsimp only
      -- the callback reads the cache of source files, so the walk is the plain one up to the caches
      have walks : Computes (SoundResolvers rangeSorter lineSorter bound files root mode)
          (walkDieListM (visitInline lineSorter bound mode own skeletons cu pc) child siblings ⟨inlines, none⟩)
          (Raised (walkDieList ((Uncached.inlineResolver mode own skeletons).inlinesCallback cu pc) child siblings
            ⟨inlines, none⟩)) :=
        computes_walkDieListM (fun die state => computes_visitInline placed cu pc die state) child siblings _
      refine computes_iff.mpr fun state sound => ?_
      obtain ⟨walked, kept⟩ := computes_iff.mp walks state sound
      rw [Command.bind_apply, walked]
      cases walkDieList ((Uncached.inlineResolver mode own skeletons).inlinesCallback cu pc) child siblings
        ⟨inlines, none⟩ with
      | error exception => exact ⟨rfl, kept⟩
      | ok answer =>
        obtain ⟨goOn, found⟩ := answer
        cases target : found.targetDie with
        | none =>
          simp only [Raised, Except.mapError, target, ofFuel]
          exact ⟨rfl, kept⟩
        | some target' =>
          simp only [Raised, Except.mapError, target]
          exact computes_iff.mp (ih target' found.inlines) _ kept

theorem computes_getInlinesInfo (placed : Placed files root own skeletons) (cu : CompileUnit) (pc : FramePtr)
    (fuel : Nat)
    (die : Die) :
    Computes (SoundResolvers rangeSorter lineSorter bound files root mode)
      (getInlinesInfo lineSorter bound mode own skeletons cu pc fuel die [])
      (Uncached.getInlinesInfo mode own skeletons cu pc fuel die) := by
  rw [getInlinesInfo, Uncached.getInlinesInfo, Resolver.getInlinesInfo]
  generalize assertImpl (die.tag = .subprogram || die.tag = .inlinedSubroutine) .assert
    "die.get_tag() == DW_TAG_subprogram || die.get_tag() == DW_TAG_inlined_subroutine" none = checked
  cases checked with
  | error exception => exact computes_iff.mpr fun _ sound => ⟨rfl, sound⟩
  | ok passed =>
    have collected : Computes (SoundResolvers rangeSorter lineSorter bound files root mode)
        (do
          let _ ← MonadExcept.ofExcept (Raised (.ok passed))
          inlinesFrom lineSorter bound mode own skeletons cu pc fuel die [])
        (do
          let _ ← Raised (.ok passed)
          ofFuel ((Uncached.inlineResolver mode own skeletons).inlinesLoop cu pc fuel die [])) :=
      Follows.bind (computes_lift (.ok passed)) fun _ _ => computes_inlinesFrom placed cu pc fuel die []
    exact collected

theorem computes_retrieveSymbolForSubprogram {options : Options} (placed : Placed files root own skeletons)
    (cu : CompileUnit) (pc : FramePtr) (fuel : Nat) (die : Die) (frame : StacktraceFrame) :
    Computes (SoundResolvers rangeSorter lineSorter bound files root options.cacheMode)
      (retrieveSymbolForSubprogram lineSorter bound options own skeletons cu pc fuel die frame)
      (Uncached.retrieveSymbolForSubprogram options own skeletons cu pc fuel die frame) := by
  refine Follows.bind (computes_lift _) fun _ _ => ?_
  refine Follows.bind (computes_lift _) fun name _ => ?_
  split
  · exact (computes_getInlinesInfo placed cu pc fuel die).bind fun inlines _ => .pure _
  · exact Follows.bind (.pure []) fun inlines _ => .pure _

theorem computes_findSubprogram {options : Options} (placed : Placed files root own skeletons) {cu : CompileUnit}
    (member : cu ∈ own.file.units) (pc : FramePtr) :
    Computes (SoundResolvers rangeSorter lineSorter bound files root options.cacheMode)
      (findSubprogram rangeSorter bound options own cu pc)
        (Raised (Uncached.findSubprogram rangeSorter options cu pc)) := by
  rw [findSubprogram, Uncached.findSubprogram]
  split
  · exact .pure _
  · rw [raised_bind]
    exact (computes_onCaches placed (computes_loadSubprograms skeletons member)).bind fun map _ => .pure _

theorem computes_retrieveSymbol {options : Options} (placed : Placed files root own skeletons) {cu : CompileUnit}
    (member : cu ∈ own.file.units) (pc : FramePtr) (fuel : Nat) (frame : StacktraceFrame) :
    Computes (SoundResolvers rangeSorter lineSorter bound files root options.cacheMode)
      (retrieveSymbol rangeSorter lineSorter bound options own skeletons cu pc fuel frame)
      (Uncached.retrieveSymbol rangeSorter options own skeletons cu pc fuel frame) := by
  refine (computes_findSubprogram placed member pc).bind fun found _ => ?_
  cases found with
  | none => exact .pure _
  | some die => exact computes_retrieveSymbolForSubprogram placed cu pc fuel die frame

theorem computes_temporarily {α : Type} {command : Resolving α} {fresh : Except ResolverFailure α} (path : ResolverPath)
    (valid : Computes (SoundResolvers rangeSorter lineSorter bound files root mode) command fresh) :
    Computes (SoundResolvers rangeSorter lineSorter bound files root mode) (Resolving.temporarily path command)
      fresh := by
  refine computes_iff.mpr fun state sound => ?_
  have without : SoundResolvers rangeSorter lineSorter bound files root mode
      fun other => if path <:+ other then none else state other := by
    constructor
    · intro other present
      split at present
      · cases present
      · exact sound.known other present
    · intro other file skeletons found
      rw [Resolving.readCaches]
      split
      · exact soundCaches_new file skeletons
      · exact sound.caches other file skeletons found
  obtain ⟨same, kept⟩ := computes_iff.mp valid _ without
  refine ⟨same, ?_, ?_⟩
  · intro other present
    dsimp only [Resolving.temporarily] at present
    split at present
    · exact sound.known other present
    · exact kept.known other present
  · intro other file skeletons found
    dsimp only [Resolving.temporarily]
    rw [Resolving.readCaches]
    split
    · exact sound.caches other file skeletons found
    · exact kept.caches other file skeletons found

theorem computes_constructResolver {split : ResolverObject}
    (placed : split.file.construct = .ok () → Placed files root split skeletons) :
    Computes (SoundResolvers rangeSorter lineSorter bound files root mode) (constructResolver bound split)
      (Raised split.file.construct) := by
  refine computes_iff.mpr fun state sound => ?_
  rw [constructResolver, Command.bind_apply, Resolving.lift, Command.ofExcept_apply]
  cases constructed : split.file.construct with
  | error exception => exact ⟨rfl, sound⟩
  | ok passed => exact ⟨rfl, sound.write (placed constructed) (soundCaches_new split.file skeletons)⟩

theorem computes_performDwarfFissionResolution (placed : Placed files root own skeletons) {cu : CompileUnit}
    (member : cu ∈ own.file.units) {dwoName : Option Text} (named : own.file.getDwoName cu = .ok dwoName)
    (frame : StacktraceFrame) {resolve : ResolverObject → List Skeleton → Resolving FrameWithInlines}
    {fresh : ResolverObject → List Skeleton → Except ResolverFailure FrameWithInlines}
    (resolves : ∀ split above, Placed files root split above →
      Computes (SoundResolvers rangeSorter lineSorter bound files root mode) (resolve split above)
        (fresh split above)) :
    Computes (SoundResolvers rangeSorter lineSorter bound files root mode)
      (performDwarfFissionResolution bound files resolve mode own skeletons cu dwoName frame)
      (Uncached.performDwarfFissionResolution files fresh own skeletons cu dwoName frame) := by
  cases dwoName with
  | none => exact .pure _
  | some name =>
    refine Follows.bind (computes_lift _) fun compDir directory => ?_
    rw [raised_eq_ok_iff] at directory
    cases leads : dwoPath name compDir with
    | none => exact .pure _
    | some path =>
      dsimp only
      let split : ResolverObject := ⟨cu.offset :: own.path, files path⟩
      -- what is below a unit is fixed by the file, whoever asks for it first
      have located := placed.split member named directory leads
      have splitPlaced : (files path).construct = .ok () → Placed files root split (⟨cu, own⟩ :: skeletons) := by
        intro constructed
        rw [constructed] at located
        exact located
      have constructs : Computes (SoundResolvers rangeSorter lineSorter bound files root mode)
          (do constructResolver bound split; resolve split (⟨cu, own⟩ :: skeletons))
          (do Raised (files path).construct; fresh split (⟨cu, own⟩ :: skeletons)) :=
        (computes_constructResolver splitPlaced).bind fun _ constructed =>
          resolves split _ (splitPlaced ((raised_eq_ok_iff ..).mp constructed))
      split
      · exact computes_temporarily split.path constructs
      · refine computes_iff.mpr fun state sound => ?_
        rw [Command.bind_apply, Command.get_apply]
        dsimp only
        cases exists_ : (state split.path).isNone with
        | true =>
          rw [if_pos rfl]
          exact computes_iff.mp constructs state sound
        | false =>
          rw [if_neg Bool.false_ne_true]
          -- a resolver that is kept was constructed, so a fresh one would be as well
          have present : (state split.path).isSome := by
            rw [← Option.not_isNone, exists_]
            rfl
          have known := sound.known split.path present
          rw [located] at known
          cases constructed : (files path).construct with
          | error exception =>
            rw [constructed] at known
            cases known
          | ok passed => exact computes_iff.mp (resolves split _ (splitPlaced constructed)) state sound

theorem computes_resolveFrame (options : Options) (frameInfo : ObjectFrame) (fuel : Nat)
    (placed : Placed files root own skeletons) :
    Computes (SoundResolvers rangeSorter lineSorter bound files root options.cacheMode)
      (resolveFrame rangeSorter lineSorter bound files options frameInfo fuel own skeletons)
      (Uncached.resolveFrame rangeSorter lineSorter files options frameInfo fuel own skeletons) := by
  induction fuel generalizing own skeletons with
  | zero => exact computes_iff.mpr fun _ sound => ⟨rfl, sound⟩
  | succ fuel ih =>
    rw [resolveFrame, Uncached.resolveFrame]
    split
    · refine (computes_lookupCu placed frameInfo.objectAddress).bind fun found looked => ?_
      cases found with
      | none => exact .pure _
      | some cu =>
        have member := mem_of_lookupCu looked
        dsimp only
        refine Follows.bind (computes_lift _) fun dwoName named => ?_
        rw [raised_eq_ok_iff] at named
        split
        · exact computes_performDwarfFissionResolution placed member named _ fun split above within => ih within
        · exact (computes_retrieveLineInfoThrough placed cu frameInfo.objectAddress _).bind fun frame _ =>
            computes_retrieveSymbol placed member frameInfo.objectAddress fuel frame
    · exact .pure _

end Commands

end Cpptrace.Dwarf
