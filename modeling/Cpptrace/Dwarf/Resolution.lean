import Cpptrace.Dwarf.Caching
import Cpptrace.Library.Settling

/-! Runs of a resolver, and when resolution ends.

What a resolver kept from earlier frames never shows in a later one, as long as
speed is not prioritized after another mode. A frame is resolved in finitely many
steps exactly if the split units that lead away from its unit come to an end.
-/

set_option autoImplicit false

namespace Cpptrace.Dwarf

open Cpptrace.Library Cpptrace.Utils

variable (rangeSorter : RangeSorter) (lineSorter : LineSorter) (bound : Option ℕ+) (files : Text → DebugFile)
  (root : DebugFile)

section Runs

structure FrameQuery where
  options : Options
  frameInfo : ObjectFrame

def resolveStep (fuel : Nat) (query : FrameQuery) (state : Resolvers) :
    Except ResolverFailure FrameWithInlines × Resolvers :=
  resolveFrame rangeSorter lineSorter bound files query.options query.frameInfo fuel ⟨[], root⟩ [] state

/-- The answer of a resolver that was just constructed. -/
def resolutionAlone (fuel : Nat) (query : FrameQuery) : Except ResolverFailure FrameWithInlines :=
  (resolveStep rangeSorter lineSorter bound files root fuel query fun _ => none).1

variable {rangeSorter lineSorter bound files root}

theorem SoundResolvers.change {mode later : CacheMode} {state : Resolvers}
    (sound : SoundResolvers rangeSorter lineSorter bound files root mode state)
    (stays : MayPrecede mode later) :
    SoundResolvers rangeSorter lineSorter bound files root later state where
  known := sound.known
  caches path file skeletons found :=
    let kept := sound.caches path file skeletons found
    ⟨kept.units, kept.tables.change stays, kept.subprograms, kept.srcfiles⟩

theorem placed_root : Placed files root ⟨[], root⟩ [] := rfl

theorem resolveStep_computes (fuel : Nat) (query : FrameQuery) {state : Resolvers}
    (sound : SoundResolvers rangeSorter lineSorter bound files root query.options.cacheMode state) :
    (resolveStep rangeSorter lineSorter bound files root fuel query state).1 =
        Uncached.resolveFrame rangeSorter lineSorter files query.options query.frameInfo fuel ⟨[], root⟩ [] ∧
      SoundResolvers rangeSorter lineSorter bound files root query.options.cacheMode
        (resolveStep rangeSorter lineSorter bound files root fuel query state).2 :=
  computes_iff.mp (computes_resolveFrame query.options query.frameInfo fuel placed_root) state sound

theorem resolutionAlone_eq (fuel : Nat) (query : FrameQuery) :
    resolutionAlone rangeSorter lineSorter bound files root fuel query =
      Uncached.resolveFrame rangeSorter lineSorter files query.options query.frameInfo fuel ⟨[], root⟩ [] :=
  (resolveStep_computes fuel query soundResolvers_none).1

end Runs

section Ends

def nextSplit (mode : CacheMode) (pc : FramePtr) (own : ResolverObject × List Skeleton) :
    Option (ResolverObject × List Skeleton) :=
  if own.1.file.ok then
    match Uncached.lookupCu rangeSorter mode own.1 own.2 pc with
    | .ok (some cu) =>
        if cu.die.tag = .skeletonUnit ∨ own.2.isEmpty then
          (dwoFile files own.1.file cu).map fun split => (⟨cu.offset :: own.1.path, split⟩, ⟨cu, own.1⟩ :: own.2)
        else none
    | _ => none
  else none

/-- The split units that lead away from a resolver come to an end. -/
def SplitsEnd (mode : CacheMode) (pc : FramePtr) (own : ResolverObject × List Skeleton) : Prop :=
  Acc (fun later earlier => nextSplit rangeSorter files mode pc earlier = some later) own

variable {rangeSorter lineSorter bound files root}

theorem raised_ends {α : Type} (outcome : Except Exception α) : Raised outcome ≠ .error .outOfFuel := by
  cases outcome <;> nofun

theorem settles_raised {α : Type} (outcome : Except Exception α) :
    Settles ResolverFailure.outOfFuel fun _ => Raised outcome :=
  .const (raised_ends outcome)

theorem settles_inlinesLoop (resolver : Resolver) (cu : CompileUnit) (pc : FramePtr) (die : Die)
    (inlines : List StacktraceFrame) :
    Settles .outOfFuel fun fuel => ofFuel (resolver.inlinesLoop cu pc fuel die inlines) := by
  induction die using Die.induction generalizing inlines with
  | step die ih =>
    rw [← Settles.succ_iff]
    simp only [Resolver.inlinesLoop_succ]
    cases found : die.children.find? (isEntered cu pc) with
    | none => exact settles_raised (.ok inlines)
    | some target =>
      dsimp only
      cases resolver.entering cu target inlines with
      | error exception => exact settles_raised (.error exception)
      | ok state => exact ih target (List.mem_of_find?_eq_some found) state.inlines

theorem settles_getInlinesInfo (mode : CacheMode) (own : ResolverObject) (skeletons : List Skeleton) (cu : CompileUnit)
    (pc : FramePtr) (die : Die) :
    Settles .outOfFuel fun fuel => Uncached.getInlinesInfo mode own skeletons cu pc fuel die := by
  simp only [Uncached.getInlinesInfo, Resolver.getInlinesInfo]
  cases assertImpl (die.tag = .subprogram || die.tag = .inlinedSubroutine) .assert
    "die.get_tag() == DW_TAG_subprogram || die.get_tag() == DW_TAG_inlined_subroutine" none with
  | error exception => exact settles_raised (.error exception)
  | ok passed => exact settles_inlinesLoop ..

theorem settles_retrieveSymbol (options : Options) (own : ResolverObject) (skeletons : List Skeleton) (cu : CompileUnit)
    (pc : FramePtr) (frame : StacktraceFrame) :
    Settles .outOfFuel fun fuel => Uncached.retrieveSymbol rangeSorter options own skeletons cu pc fuel frame := by
  refine Settles.bind (settles_raised _) fun found => ?_
  cases found with
  | none => exact .pure _
  | some die =>
    refine Settles.bind (settles_raised _) fun _ => Settles.bind (settles_raised _) fun name => ?_
    dsimp only
    split
    · exact (settles_getInlinesInfo ..).bind fun inlines => .pure _
    · exact .const nofun

theorem lineInfo_ends (mode : CacheMode) (own : ResolverObject) (skeletons : List Skeleton) (cu : CompileUnit)
    (pc : FramePtr)
    (frame : StacktraceFrame) :
    Uncached.retrieveLineInfo lineSorter mode skeletons own cu pc frame ≠ .error .outOfFuel := by
  induction skeletons generalizing own cu with
  | nil =>
    rw [Uncached.retrieveLineInfo]
    cases lineAnswerAlone lineSorter own.file.srclines ⟨mode, cu.offset, pc, frame⟩ <;> nofun
  | cons skeleton rest ih => exact ih skeleton.resolver skeleton.cuDie

theorem lookupCu_ends (mode : CacheMode) (own : ResolverObject) (skeletons : List Skeleton) (pc : FramePtr) :
    Uncached.lookupCu rangeSorter mode own skeletons pc ≠ .error .outOfFuel := by
  rw [Uncached.lookupCu]
  cases arange : (if skeletons.isEmpty then own.file.arange pc else pure none) with
  | error exception => nofun
  | ok listed =>
    cases listed with
    | some cu => nofun
    | none => exact raised_ends _

variable {options : Options} {frameInfo : ObjectFrame}

theorem fission_step {own : ResolverObject} {cu : CompileUnit} {dwoName : Option Text}
    (named : own.file.getDwoName cu = .ok dwoName) (skeletons : List Skeleton) (frame : StacktraceFrame) :
    (∃ split, dwoFile files own.file cu = some split ∧ ∀ resolve,
      Uncached.performDwarfFissionResolution files resolve own skeletons cu dwoName frame =
        resolve ⟨cu.offset :: own.path, split⟩ (⟨cu, own⟩ :: skeletons)) ∨
    dwoFile files own.file cu = none ∧ ∃ outcome, outcome ≠ .error .outOfFuel ∧
      (∀ resolved, outcome = .ok resolved → resolved = ⟨frame, []⟩) ∧ ∀ resolve,
        Uncached.performDwarfFissionResolution files resolve own skeletons cu dwoName frame = outcome := by
  have kept : ∀ resolved, (.ok ⟨frame, []⟩ : Except ResolverFailure FrameWithInlines) = .ok resolved →
      resolved = ⟨frame, []⟩ := fun _ same => (Except.ok.inj same).symm
  have thrown : ∀ exception resolved,
      (.error (.cache (.exception exception)) : Except ResolverFailure FrameWithInlines) =
      .ok resolved → resolved = ⟨frame, []⟩ := fun _ _ same => absurd same (Outcome.throw_ne_ok _ _)
  simp only [dwoFile, named, Uncached.performDwarfFissionResolution]
  -- no name, no directory, no path, no resolver: each ends here, with the frame as it was or a throw
  cases dwoName with
  | none => exact .inr ⟨rfl, .ok ⟨frame, []⟩, Outcome.ok_ne_error _ _, kept, fun _ => rfl⟩
  | some name =>
    dsimp only
    cases own.file.compDir cu with
    | error exception =>
      exact .inr ⟨rfl, .error (.cache (.exception exception)), raised_ends (.error exception), thrown exception,
        fun _ => rfl⟩
    | ok compDir =>
      dsimp only
      cases leads : dwoPath name compDir with
      | none =>
        refine .inr ⟨rfl, .ok ⟨frame, []⟩, Outcome.ok_ne_error _ _, kept, fun _ => ?_⟩
        simp only [Raised, Except.mapError, leads, Outcome.ok_bind]
        rfl
      | some path =>
        cases constructed : (files path).construct with
        | error exception =>
          refine .inr ⟨by simp [constructed], .error (.cache (.exception exception)), raised_ends (.error exception),
            thrown exception,
            fun _ => ?_⟩
          simp [Raised, Except.mapError, leads, constructed, Outcome.ok_bind, Outcome.error_bind]
        | ok passed =>
          refine .inl ⟨files path, by simp [constructed], fun _ => ?_⟩
          simp [Raised, Except.mapError, leads, constructed, Outcome.ok_bind]

variable (rangeSorter lineSorter files options frameInfo)

/-- One step: the outcome of the next resolver, or an outcome that needs no other resolver. -/
theorem resolveFrame_step (own : ResolverObject) (skeletons : List Skeleton) :
    (∃ next, nextSplit rangeSorter files options.cacheMode frameInfo.objectAddress (own, skeletons) = some next ∧
      ∀ fuel, Uncached.resolveFrame rangeSorter lineSorter files options frameInfo (fuel + 1) own skeletons =
        Uncached.resolveFrame rangeSorter lineSorter files options frameInfo fuel next.1 next.2) ∨
    nextSplit rangeSorter files options.cacheMode frameInfo.objectAddress (own, skeletons) = none ∧
      Settles .outOfFuel fun fuel =>
        Uncached.resolveFrame rangeSorter lineSorter files options frameInfo (fuel + 1) own skeletons := by
  simp only [nextSplit, Uncached.resolveFrame]
  cases own.file.ok with
  | false => exact .inr ⟨rfl, .pure _⟩
  | true =>
    simp only [if_true]
    have looks : Uncached.lookupCu rangeSorter options.cacheMode own skeletons frameInfo.objectAddress ≠
        .error .outOfFuel :=
      lookupCu_ends options.cacheMode own skeletons frameInfo.objectAddress
    cases looked : Uncached.lookupCu rangeSorter options.cacheMode own skeletons frameInfo.objectAddress with
    | error failure =>
      rw [looked] at looks
      exact .inr ⟨rfl, .const fun same => looks (congrArg Except.error (Except.error.inj same))⟩
    | ok found =>
      cases found with
      | none => exact .inr ⟨rfl, .pure _⟩
      | some cu =>
        simp only [Outcome.ok_bind]
        cases named : own.file.getDwoName cu with
        | error exception =>
          refine .inr ⟨?_, .const (raised_ends (.error exception))⟩
          rw [dwoFile, named]
          split <;> rfl
        | ok dwoName =>
          simp only [Raised, Except.mapError, Outcome.ok_bind]
          by_cases passes : cu.die.tag = .skeletonUnit ∨ (dwoName.isSome ∧ skeletons.isEmpty)
          · simp only [if_pos passes]
            have taken : cu.die.tag = .skeletonUnit ∨ skeletons.isEmpty := passes.imp_right And.right
            rw [if_pos taken]
            rcases fission_step named skeletons (startFrame frameInfo) with
              ⟨split, leads, same⟩ | ⟨ends, outcome, notFuel, -, same⟩
            · refine .inl ⟨_, by rw [leads]; rfl, fun fuel => same _⟩
            · refine .inr ⟨by rw [ends]; rfl, ?_⟩
              simp only [same]
              exact .const notFuel
          · simp only [if_neg passes]
            refine .inr ⟨?_, ?_⟩
            · split
              next taken =>
                -- a unit that names no split unit
                have unnamed : dwoName = none := by
                  by_contra some_
                  exact passes (taken.imp_right fun empty => ⟨Option.isSome_iff_ne_none.mpr some_, empty⟩)
                subst unnamed
                rw [dwoFile, named]
                rfl
              · rfl
            · have lines : Settles .outOfFuel fun _ =>
                  Uncached.retrieveLineInfo lineSorter options.cacheMode skeletons own
                  cu frameInfo.objectAddress (startFrame frameInfo) :=
                .const (lineInfo_ends options.cacheMode own skeletons cu frameInfo.objectAddress (startFrame frameInfo))
              exact lines.bind fun frame => settles_retrieveSymbol ..

variable {rangeSorter lineSorter files options frameInfo}

theorem settles_resolveFrame (own : ResolverObject × List Skeleton)
    (ends : SplitsEnd rangeSorter files options.cacheMode frameInfo.objectAddress own) :
    Settles .outOfFuel fun fuel =>
      Uncached.resolveFrame rangeSorter lineSorter files options frameInfo fuel own.1 own.2 := by
  induction ends with
  | intro own _ ih =>
    rw [← Settles.succ_iff]
    rcases resolveFrame_step rangeSorter lineSorter files options frameInfo own.1 own.2 with
      ⟨next, leads, same⟩ | ⟨-, settles⟩
    · simp only [same]
      exact ih next leads
    · exact settles

theorem splitsEnd_of_outcome (fuel : Nat) (own : ResolverObject) (skeletons : List Skeleton)
    (ended : Uncached.resolveFrame rangeSorter lineSorter files options frameInfo fuel own skeletons ≠
      .error .outOfFuel) :
    SplitsEnd rangeSorter files options.cacheMode frameInfo.objectAddress (own, skeletons) := by
  induction fuel generalizing own skeletons with
  | zero => exact absurd rfl ended
  | succ fuel ih =>
    refine .intro _ fun later leads => ?_
    rcases resolveFrame_step rangeSorter lineSorter files options frameInfo own skeletons with
      ⟨next, leads', same⟩ | ⟨ends, -⟩
    · obtain rfl := Option.some.inj (leads'.symm.trans leads)
      exact ih next.1 next.2 (same fuel ▸ ended)
    · rw [ends] at leads
      cases leads

/-- In files without cycles of references, resolution of a frame ends, with one outcome for all fuel that is
enough, exactly if the split units that lead away from its unit come to an end. -/
theorem resolution_ends_iff (query : FrameQuery) :
    (Settles .outOfFuel fun fuel => resolutionAlone rangeSorter lineSorter bound files root fuel query) ↔
      SplitsEnd rangeSorter files query.options.cacheMode query.frameInfo.objectAddress (⟨[], root⟩, []) := by
  simp only [resolutionAlone_eq]
  constructor
  · intro settles
    obtain ⟨fuel, ended⟩ := settles.exists_ne
    exact splitsEnd_of_outcome fuel _ _ ended
  · exact settles_resolveFrame (⟨[], root⟩, [])

end Ends

end Cpptrace.Dwarf
