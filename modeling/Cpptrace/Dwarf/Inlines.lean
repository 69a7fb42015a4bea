import Cpptrace.Dwarf.Subprograms
import Cpptrace.Library.Command
import Mathlib.Data.List.Infix

/-! The inlined calls at an address of a subprogram.

A loop goes down the tree of DIEs. In each list of children it stops at the first
inlined subroutine or lexical block that covers the address, and goes on with the
children of that one. Each inlined subroutine on the way gives a frame.
-/

set_option autoImplicit false

namespace Cpptrace.Dwarf

/-- `cache_mode` -/
inductive CacheMode where
  | prioritizeMemory
  | hybrid
  | prioritizeSpeed
  deriving DecidableEq, Repr

inductive CallAttribute where
  | callFile
  | callLine
  | callColumn
  deriving DecidableEq, Repr

/-- What a resolver reads of line tables: the version of a unit's table, when it has one, and the
unit's files. -/
structure LineReader where
  getLineTable : CompileUnit → Except Exception (Option Nat)
  srcfiles : CompileUnit → Except Exception (List Text)

structure SkeletonInfo where
  cuDie : CompileUnit
  resolver : LineReader

structure Resolver extends LineReader where
  cacheMode : CacheMode
  skeleton : Option SkeletonInfo
  subprogramSymbol : Die → Except Exception Text
  getUnsignedAttribute : Die → CallAttribute → Except Exception (Option UInt64)

/-- `srcfiles::get`. What it throws is no assertion of the code; it is put down as a panic. -/
def srcfileAt (files : List Text) (fileI : UInt64) : Except Exception Text :=
  match files[fileI.toNat]? with
  | some file => pure file
  | none => throw (.internalError .panic "" (some
      s!"Error while accessing the srcfiles list, requested index {fileI} is out of bounds (count = {files.length})"))

/-- Whether the list of files is asked. Under `prioritize_memory` the index is compared as a signed number. -/
def hasFile (cacheMode : CacheMode) (files : List Text) (fileI : UInt64) : Bool :=
  if cacheMode = .prioritizeMemory then fileI.toInt64.toInt < files.length
  else fileI.toNat < files.length

def LineReader.resolveFilename (reader : LineReader) (cacheMode : CacheMode) (cu : CompileUnit) (fileI : UInt64) :
    Except Exception Text := do
  let files ← reader.srcfiles cu
  if hasFile cacheMode files fileI then srcfileAt files fileI else return []

namespace Resolver

variable (resolver : Resolver) (cu : CompileUnit)

def resolveFilename (fileI : UInt64) : Except Exception Text :=
  match resolver.skeleton with
  | some skeleton => skeleton.resolver.resolveFilename resolver.cacheMode skeleton.cuDie fileI
  | none => resolver.toLineReader.resolveFilename resolver.cacheMode cu fileI

def lineTableVersion : Except Exception (Option Nat) :=
  match resolver.skeleton with
  | some skeleton => skeleton.resolver.getLineTable skeleton.cuDie
  | none => resolver.getLineTable cu

/-- The file of a call, counted from 0. Only DWARF 5 counts so itself; elsewhere 0 is no file. -/
def callFileIndex (die : Die) : Except Exception (Option UInt64) := do
  match ← resolver.getUnsignedAttribute die .callFile with
  | none => return none
  | some fileI =>
      match ← resolver.lineTableVersion cu with
      | some version =>
          if version ≠ 5 then
            if fileI = 0 then return none else return some (fileI - 1)
          else return some fileI
      | none => return some fileI

def inlineFrame (die : Die) : Except Exception StacktraceFrame := do
  let name ← resolver.subprogramSymbol die
  let file ← match ← resolver.callFileIndex cu die with
    | some fileI => resolver.resolveFilename cu fileI
    | none => pure []
  let line ← resolver.getUnsignedAttribute die .callLine
  let col ← resolver.getUnsignedAttribute die .callColumn
  return ⟨0, 0, ⟨(line.getD 0).toUInt32⟩, ⟨(col.getD 0).toUInt32⟩, file, name, true⟩

/-- What the callback of `get_inlines_info` writes to: the frames, and the DIE to go on with. -/
structure InlinesState where
  inlines : List StacktraceFrame
  targetDie : Option Die

variable (pc : FramePtr)

def inlinesCallback (die : Die) (state : InlinesState) : Except Exception (Bool × InlinesState) :=
  if die.tag = .inlinedSubroutine ∧ pcInDie cu die pc = true then do
    let frame ← resolver.inlineFrame cu die
    -- the walk of this level stops at the first DIE that is entered
    return (false, ⟨state.inlines ++ [frame], some die⟩)
  else if die.tag = .lexicalBlock ∧ pcInDie cu die pc = true then
    return (false, ⟨state.inlines, some die⟩)
  else return (true, state)

/-- The loop of `get_inlines_info`. Out of fuel there is no answer. -/
def inlinesLoop : Nat → Die → List StacktraceFrame → Option (Except Exception (List StacktraceFrame))
  | 0, _, _ => none
  | fuel + 1, currentDie, inlines =>
      match currentDie.children with
      | [] => some (.ok inlines)
      | child :: siblings =>
          match walkDieList (resolver.inlinesCallback cu pc) child siblings ⟨inlines, none⟩ with
          | .error exception => some (.error exception)
          | .ok (_, state) =>
              match state.targetDie with
              | none => some (.ok state.inlines)
              | some target => inlinesLoop fuel target state.inlines

def getInlinesInfo (fuel : Nat) (die : Die) (inlines : List StacktraceFrame) :
    Option (Except Exception (List StacktraceFrame)) :=
  match assertImpl (die.tag = .subprogram || die.tag = .inlinedSubroutine) .assert
      "die.get_tag() == DW_TAG_subprogram || die.get_tag() == DW_TAG_inlined_subroutine" none with
  | .error exception => some (.error exception)
  | .ok () => resolver.inlinesLoop cu pc fuel die inlines

end Resolver

mutual

/-- The DIEs below a DIE in preorder, each with those between them from the outermost on. -/
def descendants : Die → List (List Die × Die)
  | .node _ _ _ children => descendantsOf children

def descendantsOf : List Die → List (List Die × Die)
  | [] => []
  | die :: rest =>
      ([], die) :: (descendants die).map (fun found => (die :: found.1, found.2)) ++ descendantsOf rest

end

def Die.isScope (die : Die) : Bool :=
  die.tag = .inlinedSubroutine || die.tag = .lexicalBlock

section

variable (cu : CompileUnit) (pc : FramePtr)

def isInlineAt (found : List Die × Die) : Bool :=
  found.2.tag = .inlinedSubroutine && pcInDie cu found.2 pc && found.1.all Die.isScope

def inlinesAt (die : Die) : List (List Die × Die) :=
  (descendants die).filter (isInlineAt cu pc)

inductive Within : Die → Die → Prop where
  | self (die : Die) : Within die die
  | child {root child die : Die} (member : child ∈ root.children) (within : Within child die) : Within root die

/-- Every DIE of the tree covers what its children cover, and no two inlined subroutines or lexical
blocks that are siblings cover one address. -/
structure WellNested (root : Die) : Prop where
  inside : ∀ parent, Within root parent → ∀ child ∈ parent.children, ∀ pc,
    pcInDie cu child pc = true → pcInDie cu parent pc = true
  disjoint : ∀ parent, Within root parent → (parent.children.filter Die.isScope).Pairwise fun first second =>
    ∀ pc, ¬ (pcInDie cu first pc = true ∧ pcInDie cu second pc = true)

end

theorem Die.induction {motive : Die → Prop}
    (step : ∀ die, (∀ child ∈ die.children, motive child) → motive die) (die : Die) : motive die := by
  refine step die fun child member => Die.induction step child
termination_by die
decreasing_by
  cases die with
  | node offset tag attributes children =>
    have smaller := List.sizeOf_lt_of_mem member
    simp only [Die.children] at smaller
    simp only [Die.node.sizeOf_spec]
    omega

section

variable {cu : CompileUnit} {pc : FramePtr}

theorem WellNested.child {root child : Die} (nested : WellNested cu root) (member : child ∈ root.children) :
    WellNested cu child :=
  ⟨fun parent within => nested.inside parent (.child member within),
    fun parent within => nested.disjoint parent (.child member within)⟩

theorem inlinesAt_eq (die : Die) :
    inlinesAt cu pc die = (descendantsOf die.children).filter (isInlineAt cu pc) := by
  cases die with
  | node offset tag attributes children => rw [inlinesAt, descendants, Die.children]

theorem isInlineAt_under (die : Die) (found : List Die × Die) :
    isInlineAt cu pc (die :: found.1, found.2) = (die.isScope && isInlineAt cu pc found) := by
  simp only [isInlineAt, List.all_cons]
  cases die.isScope <;> simp

def under (die : Die) (found : List Die × Die) : List Die × Die := (die :: found.1, found.2)

theorem inlinesAt_cons (die : Die) (rest : List Die) :
    (descendantsOf (die :: rest)).filter (isInlineAt cu pc) =
      (if isInlineAt cu pc ([], die) then [([], die)] else []) ++
        (if die.isScope then (inlinesAt cu pc die).map (under die) else []) ++
        (descendantsOf rest).filter (isInlineAt cu pc) := by
  have below : ((descendants die).map (under die)).filter (isInlineAt cu pc) =
      if die.isScope then (inlinesAt cu pc die).map (under die) else [] := by
    rw [List.filter_map]
    have split : ∀ found, (isInlineAt cu pc ∘ under die) found = (die.isScope && isInlineAt cu pc found) :=
      isInlineAt_under die
    simp only [List.filter_congr fun found _ => split found]
    cases die.isScope <;> simp [inlinesAt]
  have head : descendantsOf (die :: rest) =
      ([], die) :: (descendants die).map (under die) ++ descendantsOf rest := rfl
  rw [head, List.filter_append, List.filter_cons, below]
  split <;> rfl

/-- The walk over siblings stops at an inlined subroutine or a lexical block that covers the address. -/
def isEntered (cu : CompileUnit) (pc : FramePtr) (die : Die) : Bool :=
  die.isScope && pcInDie cu die pc

theorem inlinesAt_none (dies : List Die) (uncovered : ∀ die ∈ dies, pcInDie cu die pc = false)
    (below : ∀ die ∈ dies, inlinesAt cu pc die = []) : (descendantsOf dies).filter (isInlineAt cu pc) = [] := by
  induction dies with
  | nil => rfl
  | cons die rest ih =>
    rw [inlinesAt_cons, below die List.mem_cons_self,
      ih (fun die member => uncovered die (.tail _ member)) fun die member => below die (.tail _ member)]
    simp [isInlineAt, uncovered die List.mem_cons_self]

/-- Nothing below a DIE covers an address that the DIE does not cover. -/
theorem inlinesAt_uncovered (die : Die) (nested : WellNested cu die) (uncovered : pcInDie cu die pc = false) :
    inlinesAt cu pc die = [] := by
  induction die using Die.induction with
  | step die ih =>
    -- the address lies outside the children too, so the induction goes down
    have children : ∀ child ∈ die.children, pcInDie cu child pc = false := by
      intro child member
      by_contra covers
      have covered := nested.inside die (.self die) child member pc (by simpa using covers)
      rw [uncovered] at covered
      cases covered
    rw [inlinesAt_eq]
    exact inlinesAt_none die.children children fun child member =>
      ih child member (nested.child member) (children child member)

/-- What a list of siblings contributes comes from the first of them that is entered. -/
theorem inlinesAt_siblings (dies : List Die) (nested : ∀ die ∈ dies, WellNested cu die)
    (disjoint : (dies.filter Die.isScope).Pairwise fun first second =>
      ∀ pc, ¬ (pcInDie cu first pc = true ∧ pcInDie cu second pc = true)) :
    (descendantsOf dies).filter (isInlineAt cu pc) =
      match dies.find? (isEntered cu pc) with
      | none => []
      | some die =>
          (if die.tag = .inlinedSubroutine then [([], die)] else []) ++ (inlinesAt cu pc die).map (under die) := by
  induction dies with
  | nil => rfl
  | cons die rest ih =>
    have rest_nested : ∀ die ∈ rest, WellNested cu die := fun die member => nested die (.tail _ member)
    rw [inlinesAt_cons]
    cases scope : die.isScope with
    | false =>
      have other : ¬ die.tag = .inlinedSubroutine := fun inlined => by simp [Die.isScope, inlined] at scope
      rw [List.filter_cons_of_neg (by simp [scope])] at disjoint
      rw [List.find?_cons_of_neg (by simp [isEntered, scope]), ih rest_nested disjoint]
      simp [isInlineAt, other]
    | true =>
      rw [List.filter_cons_of_pos scope] at disjoint
      have later := ih rest_nested (List.pairwise_cons.mp disjoint).2
      cases covers : pcInDie cu die pc with
      | false =>
        rw [List.find?_cons_of_neg (by simp [isEntered, covers]), later,
          inlinesAt_uncovered die (nested die List.mem_cons_self) covers]
        simp [isInlineAt, covers]
      | true =>
        -- a later sibling that is entered would cover the address as well
        have alone : rest.find? (isEntered cu pc) = none := by
          rw [List.find?_eq_none]
          intro other member entered
          obtain ⟨otherScope, otherCovers⟩ := Bool.and_eq_true_iff.mp entered
          have apart := (List.pairwise_cons.mp disjoint).1 other (List.mem_filter.mpr ⟨member, otherScope⟩)
          exact apart pc ⟨covers, otherCovers⟩
        rw [List.find?_cons_of_pos (by simp [isEntered, scope, covers]), later, alone]
        simp [isInlineAt, covers]

/-- The path to a DIE goes on to the next: the first is found outermost. -/
def Encloses (outer inner : List Die × Die) : Prop :=
  outer.1 ++ [outer.2] <+: inner.1

theorem inlinesAt_ordered (die : Die) (nested : WellNested cu die) :
    (inlinesAt cu pc die).Pairwise Encloses := by
  induction die using Die.induction with
  | step die ih =>
    rw [inlinesAt_eq, inlinesAt_siblings die.children (fun child member => nested.child member)
      (nested.disjoint die (.self die))]
    cases found : die.children.find? (isEntered cu pc) with
    | none => exact .nil
    | some target =>
      have member : target ∈ die.children := List.mem_of_find?_eq_some found
      have below : ((inlinesAt cu pc target).map (under target)).Pairwise Encloses := by
        refine List.pairwise_map.mpr ((ih target member (nested.child member)).imp fun encloses => ?_)
        exact (List.cons_prefix_cons).mpr ⟨rfl, encloses⟩
      dsimp only
      split
      · refine List.pairwise_cons.mpr ⟨fun inner deeper => ?_, below⟩
        obtain ⟨deepest, -, rfl⟩ := List.mem_map.mp deeper
        exact List.prefix_append [target] deepest.1
      · exact below

end

namespace Resolver

variable (resolver : Resolver) (cu : CompileUnit) (pc : FramePtr)

def entering (die : Die) (inlines : List StacktraceFrame) : Except Exception InlinesState :=
  if die.tag = .inlinedSubroutine then do
    let frame ← resolver.inlineFrame cu die
    return ⟨inlines ++ [frame], some die⟩
  else return ⟨inlines, some die⟩

/-- The frames of the inlined subroutines found, after those that are there already. -/
def appendFrames (found : List (List Die × Die)) (inlines : List StacktraceFrame) :
    Except Exception (List StacktraceFrame) := do
  let frames ← found.mapM fun found => resolver.inlineFrame cu found.2
  return inlines ++ frames

theorem inlinesCallback_entered {die : Die} (entered : isEntered cu pc die = true) (state : InlinesState) :
    resolver.inlinesCallback cu pc die state = (Prod.mk false) <$> resolver.entering cu die state.inlines := by
  obtain ⟨scope, covers⟩ := Bool.and_eq_true_iff.mp entered
  rw [inlinesCallback, entering]
  by_cases inlined : die.tag = .inlinedSubroutine
  · rw [if_pos ⟨inlined, covers⟩, if_pos inlined]
    cases resolver.inlineFrame cu die <;> rfl
  · have block : die.tag = .lexicalBlock := by simpa [Die.isScope, inlined] using scope
    rw [if_neg fun both => inlined both.1, if_pos ⟨block, covers⟩, if_neg inlined]
    rfl

theorem inlinesCallback_passed {die : Die} (passed : isEntered cu pc die = false) (state : InlinesState) :
    resolver.inlinesCallback cu pc die state = .ok (true, state) := by
  rw [inlinesCallback, if_neg, if_neg]
  · rfl
  · rintro ⟨block, covers⟩
    simp [isEntered, Die.isScope, block, covers] at passed
  · rintro ⟨inlined, covers⟩
    simp [isEntered, Die.isScope, inlined, covers] at passed

/-- The walk over a list of children enters the first that it can. -/
theorem walkDieList_inlines (first : Die) (siblings : List Die) (state : InlinesState) :
    (walkDieList (resolver.inlinesCallback cu pc) first siblings state).map Prod.snd =
      match (first :: siblings).find? (isEntered cu pc) with
      | none => .ok state
      | some die => resolver.entering cu die state.inlines := by
  have rest : ∀ dies, (walkSiblings (resolver.inlinesCallback cu pc) dies state).map Prod.snd =
      match dies.find? (isEntered cu pc) with
      | none => .ok state
      | some die => resolver.entering cu die state.inlines := by
    intro dies
    induction dies with
    | nil => rfl
    | cons die dies ih =>
      rw [walkSiblings]
      cases entered : isEntered cu pc die with
      | true =>
        rw [inlinesCallback_entered resolver cu pc entered, List.find?_cons_of_pos entered]
        show _ = resolver.entering cu die state.inlines
        cases resolver.entering cu die state.inlines <;> rfl
      | false =>
        rw [inlinesCallback_passed resolver cu pc entered, List.find?_cons_of_neg (by simp [entered]), ← ih]
        rfl
  -- the first is treated as the siblings are
  rw [walkDieList]
  cases entered : isEntered cu pc first with
  | true =>
    rw [inlinesCallback_entered resolver cu pc entered, List.find?_cons_of_pos entered]
    show _ = resolver.entering cu first state.inlines
    cases resolver.entering cu first state.inlines <;> rfl
  | false =>
    rw [inlinesCallback_passed resolver cu pc entered, List.find?_cons_of_neg (by simp [entered]), ← rest]
    rfl

theorem entering_target {die : Die} {inlines : List StacktraceFrame} {state : InlinesState}
    (entered : resolver.entering cu die inlines = .ok state) : state.targetDie = some die := by
  unfold entering at entered
  split at entered
  · obtain ⟨frame, -, rest⟩ := (Library.Outcome.bind_eq_ok_iff _ _ _).mp entered
    cases rest
    rfl
  · cases entered
    rfl

theorem inlinesLoop_succ (fuel : Nat) (die : Die) (inlines : List StacktraceFrame) :
    resolver.inlinesLoop cu pc (fuel + 1) die inlines =
      match die.children.find? (isEntered cu pc) with
      | none => some (.ok inlines)
      | some target =>
          match resolver.entering cu target inlines with
          | .error exception => some (.error exception)
          | .ok state => resolver.inlinesLoop cu pc fuel target state.inlines := by
  rw [inlinesLoop]
  cases die.children with
  | nil => rfl
  | cons child siblings =>
    have walked := resolver.walkDieList_inlines cu pc child siblings ⟨inlines, none⟩
    simp only
    cases ran : walkDieList (resolver.inlinesCallback cu pc) child siblings ⟨inlines, none⟩ with
    | error exception =>
      rw [ran] at walked
      cases found : (child :: siblings).find? (isEntered cu pc) with
      | none => simp [found, Except.map] at walked
      | some target =>
        rw [found] at walked
        simp only [← walked, Except.map]
    | ok answer =>
      rw [ran] at walked
      cases found : (child :: siblings).find? (isEntered cu pc) with
      | none =>
        rw [found] at walked
        have same : answer.2 = ⟨inlines, none⟩ := Except.ok.inj walked
        simp only [same]
      | some target =>
        rw [found] at walked
        have entered : resolver.entering cu target inlines = .ok answer.2 := walked.symm
        simp only [entered, resolver.entering_target cu entered]

theorem appendFrames_nil (inlines : List StacktraceFrame) :
    resolver.appendFrames cu [] inlines = .ok inlines := by
  simp [appendFrames, pure, Except.pure, bind, Except.bind]

/-- Frames are appended at the DIE that is entered first, then below it. -/
theorem appendFrames_entering (target : Die) (below : List (List Die × Die)) (inlines : List StacktraceFrame) :
    resolver.appendFrames cu
        ((if target.tag = .inlinedSubroutine then [([], target)] else []) ++ below.map (under target)) inlines =
      resolver.entering cu target inlines >>= fun state => resolver.appendFrames cu below state.inlines := by
  have same : (below.map (under target)).mapM (fun found => resolver.inlineFrame cu found.2) =
      below.mapM fun found => resolver.inlineFrame cu found.2 := List.mapM_map
  rw [appendFrames, entering]
  split
  · rw [List.singleton_append, List.mapM_cons, same]
    cases resolver.inlineFrame cu target with
    | error exception => rfl
    | ok frame =>
      simp only [appendFrames, Library.Outcome.ok_bind]
      cases below.mapM fun found => resolver.inlineFrame cu found.2 with
      | error exception => rfl
      | ok frames => simp [bind, Except.bind, pure, Except.pure]
  · rw [List.nil_append, same]
    rfl

/-- Enough fuel lets the loop append the frames of all inlined calls at the address. -/
theorem inlinesLoop_eq (die : Die) (nested : WellNested cu die) :
    ∃ enough, ∀ fuel ≥ enough, ∀ inlines,
      resolver.inlinesLoop cu pc fuel die inlines =
        some (resolver.appendFrames cu (inlinesAt cu pc die) inlines) := by
  induction die using Die.induction with
  | step die ih =>
    have siblings := @inlinesAt_siblings cu pc die.children (fun child member => nested.child member)
      (nested.disjoint die (.self die))
    cases found : die.children.find? (isEntered cu pc) with
    | none =>
      refine ⟨1, fun fuel most inlines => ?_⟩
      obtain ⟨fuel, rfl⟩ := Nat.exists_eq_add_of_le' most
      rw [inlinesLoop_succ, inlinesAt_eq, siblings, found, appendFrames_nil]
    | some target =>
      have member : target ∈ die.children := List.mem_of_find?_eq_some found
      obtain ⟨enough, below⟩ := ih target member (nested.child member)
      refine ⟨enough + 1, fun fuel most inlines => ?_⟩
      obtain ⟨fuel, rfl⟩ := Nat.exists_eq_add_of_le' (Nat.le_of_add_left_le most)
      have left : enough ≤ fuel := Nat.le_of_succ_le_succ most
      rw [inlinesLoop_succ, inlinesAt_eq, siblings, found, appendFrames_entering]
      dsimp only
      cases resolver.entering cu target inlines with
      | error exception => rfl
      | ok state => exact below fuel left state.inlines

/-- The frames that are appended are those of the inlined subroutines that cover the address below
nothing but inlined subroutines and lexical blocks, each once, from the outermost to the innermost. -/
theorem getInlinesInfo_eq (die : Die) (subprogram : die.tag = .subprogram) (nested : WellNested cu die)
    (inlines : List StacktraceFrame) :
    (inlinesAt cu pc die).Pairwise Encloses ∧ ∃ enough, ∀ fuel ≥ enough,
      resolver.getInlinesInfo cu pc fuel die inlines =
        some (resolver.appendFrames cu (inlinesAt cu pc die) inlines) := by
  obtain ⟨enough, eq⟩ := resolver.inlinesLoop_eq cu pc die nested
  refine ⟨inlinesAt_ordered die nested, enough, fun fuel most => ?_⟩
  rw [getInlinesInfo, subprogram]
  exact eq fuel most inlines

end Resolver

theorem wellNested_node {cu : CompileUnit} {root : Die} (children : ∀ child ∈ root.children, WellNested cu child)
    (inside : ∀ child ∈ root.children, ∀ pc, pcInDie cu child pc = true → pcInDie cu root pc = true)
    (disjoint : (root.children.filter Die.isScope).Pairwise fun first second =>
      ∀ pc, ¬ (pcInDie cu first pc = true ∧ pcInDie cu second pc = true)) : WellNested cu root where
  inside parent within := by
    cases within with
    | self => exact inside
    | child member within => exact (children _ member).inside parent within
  disjoint parent within := by
    cases within with
    | self => exact disjoint
    | child member within => exact (children _ member).disjoint parent within

/-- A call inlined in a block of a subprogram, behind a call site. -/
def blockUnit : CompileUnit := ⟨dieAt 1 .compileUnit 100 200 [], 5⟩

def inlinedDie : Die := dieAt 5 .inlinedSubroutine 120 150 []

def blockDie : Die := dieAt 4 .lexicalBlock 110 190 [inlinedDie]

def blockSubprogram : Die := dieAt 2 .subprogram 100 200 [dieAt 3 (.other 0x48) 104 108 [], blockDie]

theorem pcInDie_dieAt (offset : Nat) (tag : Tag) (low high : FramePtr) (children : List Die) (pc : FramePtr) :
    pcInDie blockUnit (dieAt offset tag low high children) pc = true ↔ low ≤ pc ∧ pc < high := by
  simp [pcInDie, dwarfRanges, dieAt, blockUnit, Die.attributes, pcRange, dwarf5Ranges, Range.contains]

theorem pcInDie_dieAt_inside {offset offset' : Nat} {tag tag' : Tag} {low high low' high' : FramePtr}
    {children children' : List Die} (above : low ≤ low') (below : high' ≤ high) (pc : FramePtr)
    (covers : pcInDie blockUnit (dieAt offset' tag' low' high' children') pc = true) :
    pcInDie blockUnit (dieAt offset tag low high children) pc = true := by
  rw [pcInDie_dieAt] at covers ⊢
  exact ⟨le_trans above covers.1, lt_of_lt_of_le covers.2 below⟩

theorem blockSubprogram_wellNested : WellNested blockUnit blockSubprogram := by
  have leaf : ∀ offset tag low high, WellNested blockUnit (dieAt offset tag low high []) :=
    fun _ _ _ _ => wellNested_node nofun nofun .nil
  have block : WellNested blockUnit blockDie :=
    wellNested_node (List.forall_mem_singleton.mpr (leaf ..))
      (List.forall_mem_singleton.mpr (pcInDie_dieAt_inside (by decide) (by decide)))
      (List.pairwise_singleton _ _)
  refine wellNested_node ?_ ?_ (List.pairwise_singleton _ _)
  · exact List.forall_mem_cons.mpr ⟨leaf .., List.forall_mem_singleton.mpr block⟩
  · exact List.forall_mem_cons.mpr ⟨pcInDie_dieAt_inside (by decide) (by decide),
      List.forall_mem_singleton.mpr (pcInDie_dieAt_inside (by decide) (by decide))⟩

/-- A resolver that names every DIE `f` and finds no file and no line. -/
def namingResolver : Resolver where
  getLineTable _ := .ok none
  srcfiles _ := .ok []
  cacheMode := .prioritizeSpeed
  skeleton := none
  subprogramSymbol _ := .ok ['f']
  getUnsignedAttribute _ _ := .ok none

theorem getInlinesInfo_eq_at_block :
    (inlinesAt blockUnit 130 blockSubprogram).Pairwise Encloses ∧ ∃ enough, ∀ fuel ≥ enough,
      namingResolver.getInlinesInfo blockUnit 130 fuel blockSubprogram [] =
        some (namingResolver.appendFrames blockUnit (inlinesAt blockUnit 130 blockSubprogram) []) :=
  namingResolver.getInlinesInfo_eq blockUnit 130 blockSubprogram rfl blockSubprogram_wellNested []

end Cpptrace.Dwarf
