import Cpptrace.Dwarf.CompileUnits
import Cpptrace.Dwarf.LineTables
import Cpptrace.Dwarf.SubprogramSymbol
import Cpptrace.Library.Memo

/-! `dwarf_resolver`: frames resolved from the debugging information of an object.

A resolver keeps the units of its object, their line tables, subprograms and
files, and a resolver for each split unit. The resolver of a split unit reads
lines through the resolver of the skeleton, whose caches it changes. All caches
of an object's resolvers are kept in one state, by the offsets of the skeletons
that lead to a resolver, the nearest first.
-/

set_option autoImplicit false

namespace Cpptrace.Dwarf

open Cpptrace.Library Cpptrace.Utils

def Die.globalOffset : Die → Nat
  | .node offset _ _ _ => offset

def CompileUnit.offset (cu : CompileUnit) : Nat := cu.die.globalOffset

/-- What libdwarf reads of one object. Units lie at offsets of their own, fewer than a range map can
hold, `.debug_aranges` leads to units, and no references between entries go round in a cycle.
What a resolver's constructor throws is `construct`. -/
structure DebugFile where
  ok : Bool
  construct : Except Exception Unit
  units : List CompileUnit
  arange : FramePtr → Except Exception (Option CompileUnit)
  srclines : Nat → Except Exception Srclines
  srcfiles : Nat → Except Exception (List Text)
  info : DebugInfo
  symbolDie : Die → SymbolDie
  getUnsignedAttribute : Die → CallAttribute → Except Exception (Option UInt64)
  getDwoName : CompileUnit → Except Exception (Option Text)
  compDir : CompileUnit → Except Exception (Option Text)
  offsets : units.Pairwise fun cu other => cu.offset ≠ other.offset
  limited : units.length < RangeMap.itemLimit
  listed : ∀ pc cu, arange pc = .ok (some cu) → cu ∈ units
  acyclic : ∀ die, Acyclic info.Calls (symbolDie die)

def Thrown.toException : Thrown → Exception
  | .asserted exception => exception
  | .dwarfError function => .internalError .panic "" (some function)

namespace DebugFile

variable (file : DebugFile) (die : Die)

theorem exists_symbol : ∃ fuel, (file.info.subprogramSymbol fuel (file.symbolDie die)).isSome := by
  obtain ⟨fuel, outcome, ran⟩ := (file.info.subprogramSymbol_ends_iff_acc (file.symbolDie die)).mpr
    ((file.info.calls_acc_iff_acyclic _).mpr (file.acyclic die))
  exact ⟨fuel, by rw [ran]; rfl⟩

/-- `subprogram_symbol`, which ends as there are no cycles. -/
def subprogramSymbol : Except Exception Text :=
  ((file.info.subprogramSymbol (Nat.find (file.exists_symbol die)) (file.symbolDie die)).get
    (Nat.find_spec (file.exists_symbol die))).mapError Thrown.toException

end DebugFile

structure Options where
  cacheMode : CacheMode
  resolveInlinedCalls : Bool
  deriving DecidableEq, Repr

abbrev ResolverPath := List Nat

structure Caches where
  cuCache : RangeMap CompileUnit
  generatedCuCache : Bool
  lineTables : LruCache Nat LineTableInfo
  subprogramsCache : Nat → Option (RangeMap Die)
  srcfilesCache : Nat → Option (List Text)

def Caches.new (bound : Option ℕ+) : Caches :=
  ⟨.empty, false, ⟨[], ∅, bound.map (↑), 0⟩, fun _ => none, fun _ => none⟩

abbrev Resolvers := ResolverPath → Option Caches

inductive ResolverFailure where
  | cache (failure : CacheFailure)
  | outOfFuel
  deriving DecidableEq, Repr

abbrev Resolving := Command ResolverFailure Resolvers

structure ResolverObject where
  path : ResolverPath
  file : DebugFile

/-- `skeleton_info`: the unit that a split unit belongs to, and the resolver that reads it. -/
structure Skeleton where
  cuDie : CompileUnit
  resolver : ResolverObject

section Monads

variable {m : Type → Type} [Monad m] {Entry State : Type}

/-- `walkSiblings` for a callback with effects of its own. -/
def walkSiblingsM (fn : Entry → State → m (Bool × State)) : List Entry → State → m (Bool × State)
  | [], state => pure (true, state)
  | entry :: rest, state => do
      let (goOn, state) ← fn entry state
      if goOn then walkSiblingsM fn rest state else pure (false, state)

def walkDieListM (fn : Entry → State → m (Bool × State)) (first : Entry) (siblings : List Entry) (state : State) :
    m (Bool × State) := do
  let (goOn, state) ← fn first state
  if goOn then walkSiblingsM fn siblings state else pure (true, state)

end Monads

namespace Resolving

def lift {α : Type} (outcome : Except Exception α) : Resolving α :=
  MonadExcept.ofExcept (outcome.mapError fun exception => .cache (.exception exception))

def readCaches (bound : Option ℕ+) (path : ResolverPath) (state : Resolvers) : Caches :=
  (state path).getD (.new bound)

def writeCaches (path : ResolverPath) (state : Resolvers) (caches : Caches) : Resolvers :=
  Function.update state path (some caches)

def onCaches {α : Type} (bound : Option ℕ+) (path : ResolverPath) (command : Command ResolverFailure Caches α) :
    Resolving α :=
  onPart (readCaches bound path) (writeCaches path) command

def onLineTables {α : Type} (command : Cache Nat LineTableInfo α) : Command ResolverFailure Caches α :=
  fun caches => ((command caches.lineTables).1.mapError .cache,
    { caches with lineTables := (command caches.lineTables).2 })

def temporarily {α : Type} (path : ResolverPath) (command : Resolving α) : Resolving α :=
  fun state =>
    let ran := command fun other => if path <:+ other then none else state other
    (ran.1, fun other => if path <:+ other then state other else ran.2 other)

end Resolving

def isAbsolute (path : Text) : Bool :=
  match path with
  | [] => false
  | c :: _ => c = '/'

def dwoPath (dwoName : Text) (compDir : Option Text) : Option Text :=
  if isAbsolute dwoName then some dwoName
  else compDir.map fun directory => directory ++ '/' :: dwoName

section Resolver

variable (rangeSorter : RangeSorter) (lineSorter : LineSorter) (bound : Option ℕ+)

open Resolving

def checkedLookup {V : Type} (map : RangeMap V) (pc : FramePtr) (covers : V → Bool) : Option V :=
  match map.lookup pc with
  | none => none
  | some item => if covers item then some item else none

def cachedRanges (skeletons : List Skeleton) (cu : CompileUnit) : List Range :=
  match skeletons with
  | [] => getRangelistEntries cu cu.die
  | skeleton :: _ => getRangelistEntries ⟨skeleton.cuDie.die, cu.version⟩ skeleton.cuDie.die

def coversPc (skeletons : List Skeleton) (pc : FramePtr) (cu : CompileUnit) : Bool :=
  (match skeletons with
    | [] => false
    | skeleton :: _ => skeleton.cuDie.contains pc) || cu.contains pc

/-- The callback of `lazy_generate_cu_cache`. -/
def cacheUnitUnder (skeletons : List Skeleton) (cu : CompileUnit) (cache : RangeMap CompileUnit) :
    Except Exception (Bool × RangeMap CompileUnit) := do
  let cache ← cache.addRanges cu (cachedRanges skeletons cu)
  return (skeletons.isEmpty, cache)

def matchUnitUnder (skeletons : List Skeleton) (pc : FramePtr) (cu : CompileUnit) (info : Option CompileUnit) :
    Except Exception (Bool × Option CompileUnit) :=
  if coversPc skeletons pc cu then return (false, some cu) else return (true, info)

def lazyGenerateCuCache (file : DebugFile) (skeletons : List Skeleton) : Command ResolverFailure Caches Unit := do
  if (← get).generatedCuCache then return ()
  -- the units of a file fit a range map, so what a failed walk leaves behind does not matter
  let cache ← MonadExcept.ofExcept
      ((walkCompilationUnits (cacheUnitUnder skeletons) file.units (← get).cuCache).mapError
    fun exception => .cache (.exception exception))
  modify fun caches => { caches with cuCache := cache.finalize rangeSorter, generatedCuCache := true }

def searchCuCache (file : DebugFile) (skeletons : List Skeleton) (pc : FramePtr) :
    Command ResolverFailure Caches (Option CompileUnit) := do
  lazyGenerateCuCache rangeSorter file skeletons
  return checkedLookup (← get).cuCache pc (coversPc skeletons pc)

def lookupCu (mode : CacheMode) (own : ResolverObject) (skeletons : List Skeleton) (pc : FramePtr) :
    Resolving (Option CompileUnit) := do
  match ← lift (if skeletons.isEmpty then own.file.arange pc else pure none) with
  | some cu => return some cu
  | none =>
      if mode = .prioritizeMemory then
        lift (walkCompilationUnits (matchUnitUnder skeletons pc) own.file.units none)
      else
        onCaches bound own.path (searchCuCache rangeSorter own.file skeletons pc)

def retrieveLineInfoThrough (mode : CacheMode) :
    List Skeleton → ResolverObject → CompileUnit → FramePtr → StacktraceFrame → Resolving StacktraceFrame
  | [], own, cu, pc, frame =>
      onCaches bound own.path (onLineTables (retrieveLineInfo lineSorter own.file.srclines mode cu.offset pc frame))
  | skeleton :: skeletons, _, _, pc, frame =>
      retrieveLineInfoThrough mode skeletons skeleton.resolver skeleton.cuDie pc frame

def loadSrcfiles (file : DebugFile) (offset : Nat) : Command ResolverFailure Caches (List Text) := do
  match (← get).srcfilesCache offset with
  | some names => return names
  | none =>
      let names ← MonadExcept.ofExcept ((file.srcfiles offset).mapError fun exception => .cache (.exception exception))
      modify fun caches => { caches with srcfilesCache := Function.update caches.srcfilesCache offset (some names) }
      return names

def resolveFilenameThrough (mode : CacheMode) : List Skeleton → ResolverObject → CompileUnit → UInt64 → Resolving Text
  | [], own, cu, fileI => do
      let names ← if mode = .prioritizeMemory then lift (own.file.srcfiles cu.offset)
        else onCaches bound own.path (loadSrcfiles own.file cu.offset)
      if hasFile mode names fileI then lift (srcfileAt names fileI) else return []
  | skeleton :: skeletons, _, _, fileI => resolveFilenameThrough mode skeletons skeleton.resolver skeleton.cuDie fileI

def callTableVersion (mode : CacheMode) (own : ResolverObject) (skeletons : List Skeleton) (cu : CompileUnit) :
    Resolving (Option Nat) :=
  let versionIn (resolver : ResolverObject) (cu : CompileUnit) : Resolving (Option Nat) :=
    onCaches bound resolver.path <| onLineTables do
      let table ← getLineTable lineSorter resolver.file.srclines mode cu.offset
      return table.map LineTableInfo.version
  match skeletons with
  | [] => versionIn own cu
  | skeleton :: _ => versionIn skeleton.resolver skeleton.cuDie

section Inlines

variable (mode : CacheMode) (own : ResolverObject) (skeletons : List Skeleton) (cu : CompileUnit)

def callFile (die : Die) : Resolving (Option UInt64) := do
  match ← lift (own.file.getUnsignedAttribute die .callFile) with
  | none => return none
  | some fileI =>
      match ← callTableVersion lineSorter bound mode own skeletons cu with
      | some version =>
          if version ≠ 5 then
            if fileI = 0 then return none else return some (fileI - 1)
          else return some fileI
      | none => return some fileI

def appendInline (die : Die) : Resolving StacktraceFrame := do
  let name ← lift (own.file.subprogramSymbol die)
  let file ← match ← callFile lineSorter bound mode own skeletons cu die with
    | some fileI => resolveFilenameThrough bound mode skeletons own cu fileI
    | none => pure []
  let line ← lift (own.file.getUnsignedAttribute die .callLine)
  let col ← lift (own.file.getUnsignedAttribute die .callColumn)
  return ⟨0, 0, ⟨(line.getD 0).toUInt32⟩, ⟨(col.getD 0).toUInt32⟩, file, name, true⟩

variable (pc : FramePtr)

def visitInline (die : Die) (state : Resolver.InlinesState) : Resolving (Bool × Resolver.InlinesState) :=
  if die.tag = .inlinedSubroutine ∧ pcInDie cu die pc = true then do
    let frame ← appendInline lineSorter bound mode own skeletons cu die
    return (false, ⟨state.inlines ++ [frame], some die⟩)
  else if die.tag = .lexicalBlock ∧ pcInDie cu die pc = true then
    return (false, ⟨state.inlines, some die⟩)
  else return (true, state)

def inlinesFrom : Nat → Die → List StacktraceFrame → Resolving (List StacktraceFrame)
  | 0, _, _ => throw .outOfFuel
  | fuel + 1, currentDie, inlines =>
      match currentDie.children with
      | [] => return inlines
      | child :: siblings => do
          let walked ← walkDieListM (visitInline lineSorter bound mode own skeletons cu pc) child siblings
              ⟨inlines, none⟩
          match walked.2.targetDie with
          | none => return walked.2.inlines
          | some target => inlinesFrom fuel target walked.2.inlines

def getInlinesInfo (fuel : Nat) (die : Die) (inlines : List StacktraceFrame) : Resolving (List StacktraceFrame) := do
  lift (assertImpl (die.tag = .subprogram || die.tag = .inlinedSubroutine) .assert
    "die.get_tag() == DW_TAG_subprogram || die.get_tag() == DW_TAG_inlined_subroutine" none)
  inlinesFrom lineSorter bound mode own skeletons cu pc fuel die inlines

end Inlines

section Symbols

variable (options : Options) (own : ResolverObject) (skeletons : List Skeleton) (cu : CompileUnit) (pc : FramePtr)

def retrieveSymbolForSubprogram (fuel : Nat) (die : Die) (frame : StacktraceFrame) : Resolving FrameWithInlines := do
  lift (assertImpl (die.tag = .subprogram) .assert "die.get_tag() == DW_TAG_subprogram" none)
  let name ← lift (own.file.subprogramSymbol die)
  let inlines ← if options.resolveInlinedCalls then
      getInlinesInfo lineSorter bound options.cacheMode own skeletons cu pc fuel die []
    else pure []
  return ⟨{ frame with symbol := name }, inlines⟩

def subprogramMap : Except Exception (RangeMap Die) := do
  let cache ← preprocessSubprograms cu [cu.die] .empty
  return cache.finalize rangeSorter

def loadSubprograms : Command ResolverFailure Caches (RangeMap Die) := do
  match (← get).subprogramsCache cu.offset with
  | some map => return map
  | none =>
      let map ← MonadExcept.ofExcept
          ((subprogramMap rangeSorter cu).mapError fun exception => .cache (.exception exception))
      modify fun caches =>
        { caches with subprogramsCache := Function.update caches.subprogramsCache cu.offset (some map) }
      return map

def findSubprogram : Resolving (Option Die) :=
  if options.cacheMode = .prioritizeMemory then return retrieveSymbolWalk cu pc [cu.die]
  else do
    let map ← onCaches bound own.path (loadSubprograms rangeSorter cu)
    return checkedLookup map pc fun die => pcInDie cu die pc

def retrieveSymbol (fuel : Nat) (frame : StacktraceFrame) : Resolving FrameWithInlines := do
  match ← findSubprogram rangeSorter bound options own cu pc with
  | none => return ⟨frame, []⟩
  | some die => retrieveSymbolForSubprogram lineSorter bound options own skeletons cu pc fuel die frame

end Symbols

variable (files : Text → DebugFile)

def constructResolver (object : ResolverObject) : Resolving Unit := do
  lift object.file.construct
  modify fun state => writeCaches object.path state (.new bound)

def basicFrame (frameInfo : ObjectFrame) : FrameWithInlines :=
  ⟨⟨frameInfo.rawAddress, frameInfo.objectAddress, .null, .null, frameInfo.objectPath, [], false⟩, []⟩

def startFrame (frameInfo : ObjectFrame) : StacktraceFrame :=
  { nullFrame with
    filename := frameInfo.objectPath
    rawAddress := frameInfo.rawAddress
    objectAddress := frameInfo.objectAddress }

/-- Resolution of split units, given that of frames. -/
def performDwarfFissionResolution (resolveFrame : ResolverObject → List Skeleton → Resolving FrameWithInlines)
    (mode : CacheMode) (own : ResolverObject) (skeletons : List Skeleton) (cu : CompileUnit) (dwoName : Option Text)
    (frame : StacktraceFrame) : Resolving FrameWithInlines := do
  match dwoName with
  | none => return ⟨frame, []⟩
  | some name =>
      let compDir ← lift (own.file.compDir cu)
      match dwoPath name compDir with
      | none => return ⟨frame, []⟩
      | some path =>
          let split : ResolverObject := ⟨cu.offset :: own.path, files path⟩
          -- in memory mode the resolver of the split unit is gone after the frame
          if mode = .prioritizeMemory then
            temporarily split.path do
              constructResolver bound split
              resolveFrame split (⟨cu, own⟩ :: skeletons)
          else do
            if ((← get) split.path).isNone then constructResolver bound split
            resolveFrame split (⟨cu, own⟩ :: skeletons)

/-- `resolve_frame` with `resolve_frame_core`. The fuel bounds the chain of split units and the depth of
inlined calls. -/
def resolveFrame (options : Options) (frameInfo : ObjectFrame) :
    Nat → ResolverObject → List Skeleton → Resolving FrameWithInlines
  | 0, _, _ => throw .outOfFuel
  | fuel + 1, own, skeletons =>
      if own.file.ok then do
        let pc := frameInfo.objectAddress
        match ← lookupCu rangeSorter bound options.cacheMode own skeletons pc with
        | none => return ⟨startFrame frameInfo, []⟩
        | some cu =>
            let dwoName ← lift (own.file.getDwoName cu)
            -- GNU debug fission names a split file in units that are no skeletons
            if cu.die.tag = .skeletonUnit ∨ (dwoName.isSome ∧ skeletons.isEmpty) then
              performDwarfFissionResolution bound files (resolveFrame options frameInfo fuel) options.cacheMode own
                skeletons cu dwoName (startFrame frameInfo)
            else do
              let frame ← retrieveLineInfoThrough lineSorter bound options.cacheMode skeletons own cu pc
                (startFrame frameInfo)
              retrieveSymbol rangeSorter lineSorter bound options own skeletons cu pc fuel frame
      else return basicFrame frameInfo

end Resolver

end Cpptrace.Dwarf
