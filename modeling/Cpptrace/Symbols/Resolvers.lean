import Cpptrace.Dwarf.DebugMapResolver
import Cpptrace.Symbols.Libdwarf

/-! The resolvers that stay between traces.

`get_resolver` keeps the resolver of an object when speed is prioritized, and
makes one for a single group otherwise. What a kept `dwarf_resolver` remembers of
earlier traces does not show in a later one; a `debug_map_resolver` remembers which
reads have thrown.
-/

set_option autoImplicit false

namespace Cpptrace.Symbols.Libdwarf

open Cpptrace.Library Cpptrace.Utils Cpptrace.Dwarf

section HandedBack

structure SameCall (frame other : StacktraceFrame) : Prop where
  rawAddress : other.rawAddress = frame.rawAddress
  objectAddress : other.objectAddress = frame.objectAddress
  isInline : other.isInline = frame.isInline

variable {rangeSorter : RangeSorter} {lineSorter : LineSorter} {files : Text → DebugFile}

theorem SameCall.refl (frame : StacktraceFrame) : SameCall frame frame := ⟨rfl, rfl, rfl⟩

theorem SameCall.trans {frame middle last : StacktraceFrame} (first : SameCall frame middle)
    (second : SameCall middle last) : SameCall frame last :=
  ⟨second.1.trans first.1, second.2.trans first.2, second.3.trans first.3⟩

variable {options : Options} {frameInfo : ObjectFrame}

structure HandsBack (frame : StacktraceFrame) (resolved : FrameWithInlines) : Prop where
  call : SameCall frame resolved.frame
  inlined : ∀ inline ∈ resolved.inlines, inline.isInline = true

theorem HandsBack.alone {frame : StacktraceFrame} : HandsBack frame ⟨frame, []⟩ := ⟨.refl frame, nofun⟩

end HandedBack

/-- What traces of one process are resolved with: its object files and those of split units, what there is
behind the debug maps of objects without a dSYM, and the symbol tables and JIT objects, as before. -/
structure Program where
  rangeSorter : RangeSorter
  lineSorter : LineSorter
  bound : Option ℕ+
  files : Text → DebugFile
  objects : Text → DebugFile
  isApple : Bool
  directoryExists : Text → Bool
  debugMap : Text → Except Exception (List (Text × List Binary.MachO.DebugMapEntry))
  mapSorter : ∀ entries, Sorting DebugMapSymbolInfo.sourceAddress (DebugMapResolver.mapSymbols entries)
  objectFiles : ObjectFiles
  lookupJitObject : Nat → FramePtr → Except ResolverFailure (Option (JitObjectLookupResult ResolverFailure))
  openObjectCached : Text → Except ResolverFailure (Option (ObjectFile ResolverFailure))

/-- An object that is read by a `dwarf_resolver`: all are but those without a dSYM on Apple. -/
def Program.UsesDwarf (program : Program) (objectName : Text) : Prop :=
  program.isApple = true → program.directoryExists (objectName ++ ".dSYM".toList) = true

instance (program : Program) (objectName : Text) : Decidable (program.UsesDwarf objectName) :=
  inferInstanceAs (Decidable (_ → _))

inductive ObjectResolver where
  | dwarf (resolvers : Resolvers)
  | debugMap {count : Nat} (resolver : DebugMapResolver count)

/-- A call of `resolve_frames`, under the options of its time. -/
structure TraceQuery where
  options : Options
  shouldAbsorbTraceExceptions : Bool
  frames : List ObjectFrame
  collated : CollatedFrames frames

abbrev ResolverMap := Text → Option ObjectResolver

section Kept

variable (program : Program) (fuel : Nat)

variable (query : TraceQuery)

section Group

variable (objectName : Text) (object : Option (ObjectFile ResolverFailure))

end Group

end Kept

section Independence

variable {program : Program} {query : TraceQuery}

def SoundFor (program : Program) (mode : CacheMode) (objectName : Text) (resolver : ObjectResolver) : Prop :=
  ∃ resolvers, resolver = .dwarf resolvers ∧
    SoundResolvers program.rangeSorter program.lineSorter program.bound program.files (program.objects objectName) mode
      resolvers

def SoundMap (program : Program) (mode : CacheMode) (kept : ResolverMap) : Prop :=
  ∀ objectName resolver, program.UsesDwarf objectName → kept objectName = some resolver →
    (program.objects objectName).construct = .ok () ∧ SoundFor program mode objectName resolver

variable {objectName : Text} (object : Option (ObjectFile ResolverFailure)) (fuel : Nat)

theorem SoundMap.update {mode : CacheMode} {kept : ResolverMap} (sound : SoundMap program mode kept)
    {resolver : ObjectResolver} (constructed : (program.objects objectName).construct = .ok ())
    (next : SoundFor program mode objectName resolver) :
    SoundMap program mode (Function.update kept objectName (some resolver)) := by
  intro other resolver' dwarf found
  by_cases same : other = objectName
  · subst same
    rw [Function.update_self, Option.some.injEq] at found
    exact ⟨constructed, found ▸ next⟩
  · rw [Function.update_of_ne same] at found
    exact sound other resolver' dwarf found

def TraceQuery.UsesDwarf (query : TraceQuery) (program : Program) : Prop :=
  ∀ frame ∈ query.frames, frame.objectPath ≠ [] → program.UsesDwarf frame.objectPath

theorem SoundMap.change {mode later : CacheMode} {kept : ResolverMap} (sound : SoundMap program mode kept)
    (stays : MayPrecede mode later) : SoundMap program later kept := by
  intro objectName resolver dwarf found
  obtain ⟨constructed, resolvers, same, known⟩ := sound objectName resolver dwarf found
  exact ⟨constructed, resolvers, same, known.change stays⟩

end Independence

end Cpptrace.Symbols.Libdwarf
