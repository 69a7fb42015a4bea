import Cpptrace.Binary.DebugMap
import Cpptrace.Dwarf.Resolution

/-! `debug_map_resolver`: frames of an executable without a dSYM.

An address is translated into the object file that its function comes from, by
the name of the function, and resolved there. The symbol table of an object file
and its resolver are read at the first use; a failure is thrown then and taken
for an empty table or a null resolver from then on.
-/

set_option autoImplicit false

namespace Cpptrace.Dwarf

open Cpptrace.Library Cpptrace.Utils

/-- What there is behind a debug map: the symbol tables of object files, with `none` for a file that is
not opened or has no table, and their debugging information. -/
structure ObjectFiles where
  symbolTable : Text → Except Exception (Option (List (Text × UInt64)))
  objects : Text → DebugFile

inductive Access where
  | symbols
  | resolver
  deriving DecidableEq, Repr

/-- `null_resolver` or `dwarf_resolver`, which has caches. -/
inductive TargetResolver where
  | null
  | dwarf (resolvers : Resolvers)

abbrev SymbolMap := Text → Option UInt64

structure TargetObject where
  objectPath : Text
  symbols : Option SymbolMap
  resolver : Option TargetResolver
  reads : List Access

structure DebugMapSymbolInfo (count : Nat) where
  sourceAddress : UInt64
  size : UInt64
  name : Text
  objectIndex : Fin count
  deriving DecidableEq, Repr

structure DebugMapResolver (count : Nat) where
  targetObjects : Fin count → TargetObject
  symbols : List (DebugMapSymbolInfo count)

def symbolMap (entries : List (Text × UInt64)) : SymbolMap :=
  entries.foldl (fun symbols entry => Function.update symbols entry.1 (some entry.2)) fun _ => none

def unresolvedFrame (frameInfo : ObjectFrame) (symbolName : Text) : FrameWithInlines :=
  ⟨⟨frameInfo.rawAddress, frameInfo.objectAddress, .null, .null, frameInfo.objectPath, symbolName, false⟩, []⟩

def restoreAddress (frameInfo : ObjectFrame) (resolved : FrameWithInlines) : FrameWithInlines :=
  { resolved with frame.objectAddress := frameInfo.objectAddress }

section Resolver

variable (rangeSorter : RangeSorter) (lineSorter : LineSorter) (bound : Option ℕ+) (files : Text → DebugFile)
  (objectFiles : ObjectFiles) (fuel : Nat)

namespace TargetObject

def lift {α : Type} (outcome : Except Exception α) : Command ResolverFailure TargetObject α :=
  MonadExcept.ofExcept (Raised outcome)

def getSymbols : Command ResolverFailure TargetObject SymbolMap := do
  match (← get).symbols with
  | some symbols => return symbols
  | none =>
      modify fun target => { target with symbols := some fun _ => none, reads := target.reads ++ [.symbols] }
      match ← lift (objectFiles.symbolTable (← get).objectPath) with
      | none => return fun _ => none
      | some entries =>
          modify fun target => { target with symbols := some (symbolMap entries) }
          return symbolMap entries

def getResolver : Command ResolverFailure TargetObject Unit := do
  if (← get).resolver.isNone then
    modify fun target => { target with resolver := some .null, reads := target.reads ++ [.resolver] }
    lift (objectFiles.objects (← get).objectPath).construct
    modify fun target => { target with resolver := some (.dwarf fun _ => none) }

def resolveThrough (query : FrameQuery) : Command ResolverFailure TargetObject FrameWithInlines := do
  getResolver objectFiles
  fun target =>
    match target.resolver with
    | some (.dwarf resolvers) =>
        let ran :=
          resolveStep rangeSorter lineSorter bound files (objectFiles.objects target.objectPath) fuel query resolvers
        (ran.1, { target with resolver := some (.dwarf ran.2) })
    | _ => (.ok (unresolvedFrame query.frameInfo []), target)

def resolveFrame (query : FrameQuery) (symbolName : Text) (offset : UInt64) :
    Command ResolverFailure TargetObject FrameWithInlines := do
  let symbolTable ← getSymbols objectFiles
  match symbolTable symbolName with
  | some address =>
      let resolved ← resolveThrough rangeSorter lineSorter bound files objectFiles fuel
        { query with frameInfo.objectAddress := address + offset }
      return restoreAddress query.frameInfo resolved
  | none => return unresolvedFrame query.frameInfo symbolName

end TargetObject

namespace DebugMapResolver

/-- The symbols of a debug map, under the positions of their object files. -/
def mapSymbols (entries : List (Text × List Binary.MachO.DebugMapEntry)) : List (DebugMapSymbolInfo entries.length) :=
  (List.finRange entries.length).flatMap fun index =>
    entries[index].2.map fun symbol => ⟨symbol.sourceAddress, symbol.size, symbol.name, index⟩

def new (entries : List (Text × List Binary.MachO.DebugMapEntry))
    (sorting : Sorting DebugMapSymbolInfo.sourceAddress (mapSymbols entries)) : DebugMapResolver entries.length where
  targetObjects index := ⟨entries[index].1, none, none, []⟩
  symbols := sorting.sorted

variable {count : Nat}

def findSymbol (symbols : List (DebugMapSymbolInfo count)) (pc : FramePtr) : Option (DebugMapSymbolInfo count) :=
  match firstLessThanOrEqual DebugMapSymbolInfo.sourceAddress pc symbols with
  | none => none
  | some symbol => if pc ≤ symbol.sourceAddress + symbol.size then some symbol else none

def resolveFrame (query : FrameQuery) (resolver : DebugMapResolver count) :
    Except ResolverFailure FrameWithInlines × DebugMapResolver count :=
  match findSymbol resolver.symbols query.frameInfo.objectAddress with
  | none => (.ok (unresolvedFrame query.frameInfo []), resolver)
  | some symbol =>
      let ran := TargetObject.resolveFrame rangeSorter lineSorter bound files objectFiles fuel query symbol.name
        (query.frameInfo.objectAddress - symbol.sourceAddress) (resolver.targetObjects symbol.objectIndex)
      (ran.1, { resolver with targetObjects := Function.update resolver.targetObjects symbol.objectIndex ran.2 })

end DebugMapResolver

section Specification

variable {count : Nat}

abbrev ThrownBefore := Access → Bool

/-- The symbols of a target object, as long as reading them was not tried in vain. -/
def symbolsAfter (objectPath : Text) (thrown : ThrownBefore) : Except Exception SymbolMap :=
  if thrown .symbols then .ok fun _ => none
  else (objectFiles.symbolTable objectPath).map fun entries => symbolMap (entries.getD [])

def resolveAfter (objectPath : Text) (thrown : ThrownBefore) (query : FrameQuery) :
    Except ResolverFailure FrameWithInlines :=
  if thrown .resolver then .ok (unresolvedFrame query.frameInfo [])
  else do
    Raised (objectFiles.objects objectPath).construct
    resolutionAlone rangeSorter lineSorter bound files (objectFiles.objects objectPath) fuel query

def targetSpec (objectPath : Text) (query : FrameQuery) (symbolName : Text) (offset : UInt64) (thrown : ThrownBefore) :
    Except ResolverFailure FrameWithInlines × ThrownBefore :=
  match symbolsAfter objectFiles objectPath thrown with
  | .error exception => (.error (.cache (.exception exception)), Function.update thrown .symbols true)
  | .ok symbols =>
      match symbols symbolName with
      | none => (.ok (unresolvedFrame query.frameInfo symbolName), thrown)
      | some address =>
          ((resolveAfter rangeSorter lineSorter bound files objectFiles fuel objectPath thrown
              { query with frameInfo.objectAddress := address + offset }).map (restoreAddress query.frameInfo),
            Function.update thrown .resolver
              (thrown .resolver || ((objectFiles.objects objectPath).construct.toOption.isNone)))

end Specification

section Targets

def SoundTargetResolver (mode : CacheMode) (objectPath : Text) (thrown : ThrownBefore) : TargetResolver → Prop
  | .null => thrown .resolver = true
  | .dwarf resolvers => thrown .resolver = false ∧ (objectFiles.objects objectPath).construct = .ok () ∧
      SoundResolvers rangeSorter lineSorter bound files (objectFiles.objects objectPath) mode resolvers

structure SoundTarget (mode : CacheMode) (objectPath : Text) (thrown : ThrownBefore) (target : TargetObject) :
    Prop where
  path : target.objectPath = objectPath
  readOnce : target.reads.Nodup
  symbolsRead : Access.symbols ∈ target.reads ↔ target.symbols.isSome
  resolverRead : Access.resolver ∈ target.reads ↔ target.resolver.isSome
  symbols : match target.symbols with
    | none => thrown .symbols = false
    | some symbols => symbolsAfter objectFiles objectPath thrown = .ok symbols
  resolver : match target.resolver with
    | none => thrown .resolver = false
    | some resolver =>
        SoundTargetResolver rangeSorter lineSorter bound files objectFiles mode objectPath thrown resolver

variable {rangeSorter lineSorter bound files objectFiles fuel}

variable {mode : CacheMode} {objectPath : Text} {thrown : ThrownBefore} {target : TargetObject}

theorem SoundTargetResolver.congr {thrown' : ThrownBefore} {resolver : TargetResolver}
    (holds : SoundTargetResolver rangeSorter lineSorter bound files objectFiles mode objectPath thrown resolver)
    (same : thrown' .resolver = thrown .resolver) :
    SoundTargetResolver rangeSorter lineSorter bound files objectFiles mode objectPath thrown' resolver := by
  cases resolver with
  | null => exact same.trans holds
  | dwarf resolvers => exact ⟨same.trans holds.1, holds.2⟩

theorem SoundTarget.withSymbols
    (sound : SoundTarget rangeSorter lineSorter bound files objectFiles mode objectPath thrown target)
    (unread : target.symbols = none) {symbols : SymbolMap} {thrown' : ThrownBefore}
    (after : symbolsAfter objectFiles objectPath thrown' = .ok symbols) (same : thrown' .resolver = thrown .resolver) :
    SoundTarget rangeSorter lineSorter bound files objectFiles mode objectPath thrown'
      { target with symbols := some symbols, reads := target.reads ++ [.symbols] } where
  path := sound.path
  readOnce := by
    have absent : Access.symbols ∉ target.reads := by
      rw [sound.symbolsRead, unread]
      nofun
    exact List.nodup_append'.mpr ⟨sound.readOnce, List.nodup_singleton _, List.disjoint_singleton.mpr absent⟩
  symbolsRead := by simp
  resolverRead := by simp [sound.resolverRead]
  symbols := after
  resolver := by
    have known := sound.resolver
    dsimp only
    cases kept : target.resolver with
    | none =>
      rw [kept] at known
      exact same.trans known
    | some resolver =>
      rw [kept] at known
      exact known.congr same

theorem SoundTarget.getSymbols
    (sound : SoundTarget rangeSorter lineSorter bound files objectFiles mode objectPath thrown target) :
    match symbolsAfter objectFiles objectPath thrown with
    | .error exception =>
        (TargetObject.getSymbols objectFiles target).1 = .error (.cache (.exception exception)) ∧
        SoundTarget rangeSorter lineSorter bound files objectFiles mode objectPath
          (Function.update thrown .symbols true)
          (TargetObject.getSymbols objectFiles target).2
    | .ok symbols =>
        (TargetObject.getSymbols objectFiles target).1 = .ok symbols ∧
        SoundTarget rangeSorter lineSorter bound files objectFiles mode objectPath thrown
          (TargetObject.getSymbols objectFiles target).2 := by
  have known := sound.symbols
  cases kept : target.symbols with
  | some symbols =>
    rw [kept] at known
    have ran : TargetObject.getSymbols objectFiles target = (.ok symbols, target) := by
      simp only [TargetObject.getSymbols, Command.bind_apply, Command.get_apply, kept, Command.pure_apply]
    rw [known, ran]
    exact ⟨rfl, sound⟩
  | none =>
    rw [kept] at known
    cases read : objectFiles.symbolTable objectPath with
    | error exception =>
      have after : symbolsAfter objectFiles objectPath thrown = .error exception := by
        simp [symbolsAfter, known, read, Except.map]
      have ran : TargetObject.getSymbols objectFiles target = (.error (.cache (.exception exception)),
          { target with symbols := some fun _ => none, reads := target.reads ++ [.symbols] }) := by
        simp [TargetObject.getSymbols, TargetObject.lift, Raised, Except.mapError, kept, sound.path, read]
      rw [after, ran]
      exact ⟨rfl, sound.withSymbols kept (by simp [symbolsAfter]) (by simp)⟩
    | ok entries =>
      have after : symbolsAfter objectFiles objectPath thrown = .ok (symbolMap (entries.getD [])) := by
        simp [symbolsAfter, known, read, Except.map]
      have ran : TargetObject.getSymbols objectFiles target = (.ok (symbolMap (entries.getD [])),
          { target with symbols := some (symbolMap (entries.getD [])), reads := target.reads ++ [.symbols] }) := by
        cases entries with
        | none =>
          simp [TargetObject.getSymbols, TargetObject.lift, Raised, Except.mapError, kept, sound.path, read]
          rfl
        | some entries =>
          simp [TargetObject.getSymbols, TargetObject.lift, Raised, Except.mapError, kept, sound.path, read]
      rw [after, ran]
      exact ⟨rfl, sound.withSymbols kept after rfl⟩

theorem SoundTarget.withResolver
    (sound : SoundTarget rangeSorter lineSorter bound files objectFiles mode objectPath thrown target)
    {resolver : TargetResolver} {reads : List Access} {thrown' : ThrownBefore}
    (same : thrown' .symbols = thrown .symbols)
    (once : reads.Nodup) (symbolsIn : Access.symbols ∈ reads ↔ Access.symbols ∈ target.reads)
    (resolverIn : Access.resolver ∈ reads)
    (holds : SoundTargetResolver rangeSorter lineSorter bound files objectFiles mode objectPath thrown' resolver) :
    SoundTarget rangeSorter lineSorter bound files objectFiles mode objectPath thrown'
      { target with resolver := some resolver, reads := reads } where
  path := sound.path
  readOnce := once
  symbolsRead := symbolsIn.trans sound.symbolsRead
  resolverRead := by simp [resolverIn]
  symbols := by
    rw [symbolsAfter, same]
    exact sound.symbols
  resolver := holds

theorem SoundTarget.resolveThrough (query : FrameQuery)
    (sound : SoundTarget rangeSorter lineSorter bound files objectFiles query.options.cacheMode objectPath thrown
      target) :
    (TargetObject.resolveThrough rangeSorter lineSorter bound files objectFiles fuel query target).1 =
        resolveAfter rangeSorter lineSorter bound files objectFiles fuel objectPath thrown query ∧
      SoundTarget rangeSorter lineSorter bound files objectFiles query.options.cacheMode objectPath
        (Function.update thrown .resolver
          (thrown .resolver || ((objectFiles.objects objectPath).construct.toOption.isNone)))
        (TargetObject.resolveThrough rangeSorter lineSorter bound files objectFiles fuel query target).2 := by
  obtain rfl := sound.path
  have known := sound.resolver
  have there := sound.resolverRead
  rw [TargetObject.resolveThrough, Command.bind_apply]
  cases kept : target.resolver with
  | some resolver =>
    rw [kept] at known there
    have got : TargetObject.getResolver objectFiles target = (.ok (), target) := by
      simp [TargetObject.getResolver, kept]
    rw [got]
    dsimp only
    rw [kept]
    cases resolver with
    -- the empty resolver is kept only after a construction that threw
    | null =>
      have failed : thrown .resolver = true := known
      have unchanged : Function.update thrown .resolver
          (thrown .resolver || (objectFiles.objects target.objectPath).construct.toOption.isNone) = thrown := by
        simp [failed]
      rw [resolveAfter, if_pos failed, unchanged]
      exact ⟨rfl, sound⟩
    | dwarf resolvers =>
      obtain ⟨fine, constructed, caches⟩ := known
      obtain ⟨answer, next⟩ := resolveStep_computes fuel query caches
      have unchanged : Function.update thrown .resolver
          (thrown .resolver || (objectFiles.objects target.objectPath).construct.toOption.isNone) = thrown := by
        simp [fine, constructed, Except.toOption]
      rw [resolveAfter, if_neg (Bool.eq_false_iff.mp fine), unchanged, constructed]
      have holds : SoundTargetResolver rangeSorter lineSorter bound files objectFiles query.options.cacheMode
          target.objectPath
          thrown (.dwarf _) := ⟨fine, constructed, next⟩
      exact ⟨answer.trans (resolutionAlone_eq fuel query).symm,
        sound.withResolver rfl sound.readOnce .rfl (there.mpr rfl) holds⟩
  | none =>
    rw [kept] at known there
    -- not kept, hence not read so far: this is the one read
    have unread : Access.resolver ∉ target.reads := there.not.mpr nofun
    have once : (target.reads ++ [Access.resolver]).Nodup := List.nodup_append'.mpr
      ⟨sound.readOnce, List.nodup_singleton _, List.disjoint_singleton.mpr unread⟩
    have symbolsIn : Access.symbols ∈ target.reads ++ [.resolver] ↔ Access.symbols ∈ target.reads := by simp
    rw [resolveAfter, if_neg (Bool.eq_false_iff.mp known), known, Bool.false_or]
    cases constructed : (objectFiles.objects target.objectPath).construct with
    | error exception =>
      have got : TargetObject.getResolver objectFiles target = (.error (.cache (.exception exception)),
          { target with resolver := some .null, reads := target.reads ++ [.resolver] }) := by
        simp [TargetObject.getResolver, TargetObject.lift, Raised, Except.mapError, kept, constructed]
      rw [got]
      exact ⟨rfl, sound.withResolver (by simp) once symbolsIn (by simp)
        (by simp [SoundTargetResolver, Except.toOption])⟩
    | ok passed =>
      have got : TargetObject.getResolver objectFiles target = (.ok (),
          { target with resolver := some (.dwarf fun _ => none), reads := target.reads ++ [.resolver] }) := by
        simp [TargetObject.getResolver, TargetObject.lift, Raised, Except.mapError, kept, constructed]
      obtain ⟨answer, next⟩ := resolveStep_computes fuel query
        (soundResolvers_none : SoundResolvers rangeSorter lineSorter bound files (objectFiles.objects target.objectPath)
          query.options.cacheMode fun _ => none)
      have unchanged : Function.update thrown .resolver ((Except.ok passed : Except Exception Unit).toOption.isNone) =
          thrown := by
        simp [known, Except.toOption]
      have holds : SoundTargetResolver rangeSorter lineSorter bound files objectFiles query.options.cacheMode
          target.objectPath
          thrown (.dwarf _) := ⟨known, constructed, next⟩
      rw [got, unchanged]
      exact ⟨answer.trans (resolutionAlone_eq fuel query).symm,
        sound.withResolver rfl once symbolsIn (by simp) holds⟩

theorem SoundTarget.resolveFrame {query : FrameQuery} (symbolName : Text) (offset : UInt64)
    (sound : SoundTarget rangeSorter lineSorter bound files objectFiles query.options.cacheMode objectPath thrown
      target) :
    (TargetObject.resolveFrame rangeSorter lineSorter bound files objectFiles fuel query symbolName offset target).1 =
        (targetSpec rangeSorter lineSorter bound files objectFiles fuel objectPath query symbolName offset thrown).1 ∧
      SoundTarget rangeSorter lineSorter bound files objectFiles query.options.cacheMode objectPath
        (targetSpec rangeSorter lineSorter bound files objectFiles fuel objectPath query symbolName offset thrown).2
        (TargetObject.resolveFrame rangeSorter lineSorter bound files objectFiles fuel query symbolName offset
          target).2 := by
  have got := sound.getSymbols
  rw [TargetObject.resolveFrame, targetSpec, Command.bind_apply]
  cases after : symbolsAfter objectFiles objectPath thrown with
  | error exception =>
    rw [after] at got
    rw [got.1]
    exact ⟨rfl, got.2⟩
  | ok symbols =>
    rw [after] at got
    obtain ⟨same, next⟩ := got
    rw [same]
    dsimp only
    cases symbols symbolName with
    | none => exact ⟨rfl, next⟩
    | some address =>
      let translated : FrameQuery := { query with frameInfo.objectAddress := address + offset }
      obtain ⟨answer, last⟩ := next.resolveThrough translated
      dsimp only
      rw [Command.bind_apply, answer]
      cases resolveAfter rangeSorter lineSorter bound files objectFiles fuel objectPath thrown translated with
      | error failure => exact ⟨rfl, last⟩
      | ok resolved => exact ⟨rfl, last⟩

end Targets

section Runs

variable {count : Nat}

structure SoundDebugMap (mode : CacheMode) (paths : Fin count → Text) (symbols : List (DebugMapSymbolInfo count))
    (resolver : DebugMapResolver count) (thrown : Fin count → ThrownBefore) : Prop where
  symbols : resolver.symbols = symbols
  targets : ∀ index, SoundTarget rangeSorter lineSorter bound files objectFiles mode (paths index) (thrown index)
    (resolver.targetObjects index)

variable {rangeSorter lineSorter bound files objectFiles}

theorem SoundTarget.change {mode later : CacheMode} {objectPath : Text} {thrown : ThrownBefore} {target : TargetObject}
    (stays : MayPrecede mode later)
    (sound : SoundTarget rangeSorter lineSorter bound files objectFiles mode objectPath thrown target) :
    SoundTarget rangeSorter lineSorter bound files objectFiles later objectPath thrown target where
  path := sound.path
  readOnce := sound.readOnce
  symbolsRead := sound.symbolsRead
  resolverRead := sound.resolverRead
  symbols := sound.symbols
  resolver := by
    have known := sound.resolver
    cases kept : target.resolver with
    | none =>
      rw [kept] at known
      exact known
    | some resolver =>
      rw [kept] at known
      cases resolver with
      | null => exact known
      | dwarf resolvers => exact ⟨known.1, known.2.1, known.2.2.change stays⟩

variable {paths : Fin count → Text} {symbols : List (DebugMapSymbolInfo count)}

theorem SoundDebugMap.change {mode later : CacheMode} {resolver : DebugMapResolver count}
    {thrown : Fin count → ThrownBefore}
    (stays : MayPrecede mode later)
    (sound : SoundDebugMap rangeSorter lineSorter bound files objectFiles mode paths symbols resolver thrown) :
    SoundDebugMap rangeSorter lineSorter bound files objectFiles later paths symbols resolver thrown :=
  ⟨sound.symbols, fun index => (sound.targets index).change stays⟩

end Runs

end Resolver

/-- A function that an address is translated by: the last one that starts up to the address, if it reaches
there. Its end counts as inside. -/
structure Translates {count : Nat} (symbols : List (DebugMapSymbolInfo count)) (pc : FramePtr)
    (symbol : DebugMapSymbolInfo count) : Prop where
  listed : symbol ∈ symbols
  starts : symbol.sourceAddress ≤ pc
  reaches : pc ≤ symbol.sourceAddress + symbol.size
  alone : ∀ other ∈ symbols, symbol.sourceAddress ≤ other.sourceAddress → other.sourceAddress ≤ pc → other = symbol

/-- However functions with one start are sorted, an address is translated by a function exactly if no other
starts between the start of the function and the address, and the function reaches the address. -/
theorem findSymbol_iff {count : Nat} (symbols : List (DebugMapSymbolInfo count)) (pc : FramePtr)
    (symbol : DebugMapSymbolInfo count) :
    (∀ sorting : Sorting DebugMapSymbolInfo.sourceAddress symbols,
      DebugMapResolver.findSymbol sorting.sorted pc = some symbol) ↔ Translates symbols pc symbol := by
  constructor
  · intro finds
    have found := finds (.inserted _ _)
    rw [DebugMapResolver.findSymbol] at found
    cases located : firstLessThanOrEqual DebugMapSymbolInfo.sourceAddress pc
        (Sorting.inserted DebugMapSymbolInfo.sourceAddress symbols).sorted with
    | none =>
      rw [located] at found
      cases found
    | some other =>
      rw [located] at found
      dsimp only at found
      split at found
      next reaches =>
        cases found
        have greatest := (Sorting.inserted _ _).found_greatest pc symbol located
        refine ⟨greatest.member, greatest.le, reaches, fun other member above le => ?_⟩
        -- a sort may put the other one behind
        have other_greatest : Greatest DebugMapSymbolInfo.sourceAddress pc symbols other :=
          ⟨member, le, fun third within le' => le_trans (greatest.greatest third within le') above⟩
        obtain ⟨sorting, last⟩ := Sorting.exists_found pc other other_greatest
        have same := finds sorting
        rw [DebugMapResolver.findSymbol, last] at same
        dsimp only at same
        split at same
        · exact Option.some.inj same
        · cases same
      · cases found
  · intro translates sorting
    rw [DebugMapResolver.findSymbol]
    cases located : firstLessThanOrEqual DebugMapSymbolInfo.sourceAddress pc sorting.sorted with
    | none => exact absurd translates.starts ((sorting.found_none_iff pc).mp located symbol translates.listed)
    | some other =>
      have greatest := sorting.found_greatest pc other located
      have same := translates.alone other greatest.member (greatest.greatest symbol translates.listed translates.starts)
        greatest.le
      subst same
      exact if_pos translates.reaches

end Cpptrace.Dwarf
