import Cpptrace.Library.Unions

/-! `lazy_trace_holder`: a raw trace, or the trace that it was resolved to.

Other than `Result`, the assignments do not ask whether a holder is assigned to
itself, and they set the flag before the union is filled again.
-/

set_option autoImplicit false

namespace Cpptrace.Exceptions

open Cpptrace.Library Tagged

abbrev RawTrace := List Nat

abbrev HolderName (count : Nat) := Option (Fin count)

/-- What the union of a holder holds: `trace`, or `resolved_trace`. -/
abbrev Held (Frame : Type) := RawTrace ⊕ List Frame

abbrev Holders (count : Nat) (Frame : Type) := Variables count (Held Frame) Bool

inductive HolderOp (count : Nat) where
  | copyAssign (name other : Fin count)
  | moveAssign (name other : Fin count)
  | copied (other : Fin count)
  | moved (other : Fin count)
  | getRawTrace (name : Fin count)
  | getResolvedTrace (name : Fin count)
  | getResolvedTraceConst (name : Fin count)
  | isResolved (name : Fin count)

inductive HolderAnswer (Frame : Type) where
  | done
  | held (held : Held Frame)
  | resolved (resolved : Bool)

namespace LazyTraceHolder

variable {count : Nat} {Frame : Type}

abbrev Using (count : Nat) (Frame : Type) := Tagged.Using (HolderName count) (Held Frame) Bool

def isResolvedKind (held : Held Frame) : Bool := held.isRight

/-- A raw and a resolved trace are vectors: a copy may run out of memory, a move leaves an empty one and does
not throw. -/
def vectors (copyThrows : Held Frame → Bool) : Payload (Held Frame) :=
  ⟨copyThrows, fun _ => false, Sum.map (fun _ => []) fun _ => []⟩

variable (copyThrows : Held Frame → Bool) (resolve : RawTrace → Except Unit (List Frame))

def construct (make : HolderName count → HolderName count → Bool → Using count Frame Unit)
    (name other : HolderName count) :
    Using count Frame Unit := do
  let resolved ← readTag other
  setTag name resolved
  make name other resolved

/-- `clear`, the flag, and the constructor of one member. -/
def assign (make : HolderName count → HolderName count → Bool → Using count Frame Unit)
    (name other : HolderName count) :
    Using count Frame Unit := do
  clear isResolvedKind name
  construct make name other

def copyAssign (name other : HolderName count) : Using count Frame Unit :=
  assign (copyAs isResolvedKind (vectors copyThrows)) name other

def moveAssign (name other : HolderName count) : Using count Frame Unit :=
  assign (moveAs isResolvedKind (vectors copyThrows)) name other

def temporary : Using count Frame (Held Frame) := do
  let resolved ← readTag none
  let held ← useAs isResolvedKind none resolved
  clear isResolvedKind none
  return held

/-- Throws a `logic_error` if the trace was resolved. -/
def getRawTrace (name : HolderName count) : Using count Frame (Held Frame) := do
  if ← readTag name then throw .thrown else useAs isResolvedKind name false

/-- What is stored for a raw trace: what is thrown while it is resolved is absorbed, and then no frame is stored. -/
def resolution (trace : RawTrace) : List Frame :=
  if trace.isEmpty then []
  else
    match resolve trace with
    | .ok frames => frames
    | .error _ => []

def rawOf : Held Frame → RawTrace
  | .inl trace => trace
  | .inr _ => []

/-- The raw trace is moved out, the holder becomes one of an empty trace, and then the resolved one is stored. -/
def resolveHeld (name : HolderName count) : Using count Frame Unit := do
  let oldTrace ← useAs isResolvedKind name false
  onCells (Cells.assign name ((vectors copyThrows).movedFrom oldTrace))
  onCells (Cells.construct none (.inr []))
  setTag none true
  moveAssign copyThrows name none
  clear isResolvedKind none
  let _ ← useAs isResolvedKind name true
  onCells (Cells.assign name (.inr (resolution resolve (rawOf oldTrace))))

def ensureResolved (name : HolderName count) : Using count Frame Unit := do
  if ← readTag name then return () else resolveHeld copyThrows resolve name

def getResolvedTrace (name : HolderName count) : Using count Frame (Held Frame) := do
  ensureResolved copyThrows resolve name
  useAs isResolvedKind name true

/-- Throws a `logic_error` if the trace was not resolved. -/
def getResolvedTraceConst (name : HolderName count) : Using count Frame (Held Frame) := do
  if ← readTag name then useAs isResolvedKind name true else throw .thrown

def perform : HolderOp count → Using count Frame (HolderAnswer Frame)
  | .copyAssign name other => do copyAssign copyThrows (some name) (some other); return .done
  | .moveAssign name other => do moveAssign copyThrows (some name) (some other); return .done
  | .copied other => do
      construct (copyAs isResolvedKind (vectors copyThrows)) none (some other)
      return .held (← temporary)
  | .moved other => do
      construct (moveAs isResolvedKind (vectors copyThrows)) none (some other)
      return .held (← temporary)
  | .getRawTrace name => do return .held (← getRawTrace (some name))
  | .getResolvedTrace name => do return .held (← getResolvedTrace copyThrows resolve (some name))
  | .getResolvedTraceConst name => do return .held (← getResolvedTraceConst (some name))
  | .isResolved name => do return .resolved (← readTag (some name))

section Specification

def traceOf : Held Frame → List Frame
  | .inl trace => resolution resolve trace
  | .inr frames => frames

def movedOut (contents : Fin count → Held Frame) (other : Fin count) : Fin count → Held Frame :=
  Function.update contents other (Sum.map (fun _ => []) (fun _ => []) (contents other))

def specRawTrace (held : Held Frame) : Except Ending (Held Frame) :=
  if held.isRight then .error .thrown else .ok held

def specResolvedTrace (held : Held Frame) : Except Ending (Held Frame) :=
  if held.isRight then .ok held else .error .thrown

def specPerform (op : HolderOp count) (contents : Fin count → Held Frame) :
    Except Ending (HolderAnswer Frame) × (Fin count → Held Frame) :=
  match op with
  | .copyAssign name other => (.ok .done, Function.update contents name (contents other))
  | .moveAssign name other => (.ok .done, Function.update (movedOut contents other) name (contents other))
  | .copied other =>
      (if copyThrows (contents other) then .error .thrown else .ok (.held (contents other)), contents)
  | .moved other => (.ok (.held (contents other)), movedOut contents other)
  | .getRawTrace name => ((specRawTrace (contents name)).map .held, contents)
  | .getResolvedTrace name =>
      (.ok (.held (.inr (traceOf resolve (contents name)))),
        Function.update contents name (.inr (traceOf resolve (contents name))))
  | .getResolvedTraceConst name => ((specResolvedTrace (contents name)).map .held, contents)
  | .isResolved name => (.ok (.resolved (contents name).isRight), contents)

/-- No holder is assigned to itself, and memory lasts for the copy. -/
def AssignsOther (op : HolderOp count) (contents : Fin count → Held Frame) : Prop :=
  match op with
  | .copyAssign name other => name ≠ other ∧ copyThrows (contents other) = false
  | .moveAssign name other => name ≠ other
  | _ => True

theorem specPerform_clean (op : HolderOp count) (contents : Fin count → Held Frame) (misuse : Misuse) :
    (specPerform copyThrows resolve op contents).1 ≠ .error (.misuse misuse) := by
  cases op
  case copied | getRawTrace | getResolvedTraceConst =>
    simp only [specPerform, specRawTrace, specResolvedTrace]
    split_ifs <;> nofun
  all_goals nofun

end Specification

section Refinement

variable {copyThrows resolve} {contents : Fin count → Held Frame} {stale : Bool} {name other : Fin count}

variable (copyThrows) in
theorem isRight_movedFrom (held : Held Frame) :
    isResolvedKind ((vectors copyThrows).movedFrom held) = isResolvedKind held := by
  cases held <;> rfl

abbrev without (contents : Fin count → Held Frame) (name : Fin count) : HolderName count → Option (Held Frame) :=
  Function.update (filled contents none) (some name) none

theorem without_other (apart : name ≠ other) : without contents name (some other) = some (contents other) :=
  Function.update_of_ne (fun equal => apart (Option.some.inj equal).symm) ..

theorem kinds_some (local_ : Bool) (name : Fin count) :
    kinds isResolvedKind contents local_ (some name) = isResolvedKind (contents name) := rfl

theorem performs_copyAssign (apart : name ≠ other) (quiet : copyThrows (contents other) = false) :
    Performs isResolvedKind contents (copyAssign copyThrows (some name) (some other)) (.ok ())
      (Function.update contents name (contents other)) := by
  refine .returns fun stale => ?_
  have lives : filled contents none (some name) = some (contents name) := rfl
  refine (returns_clear lives rfl).bind (returns_readTag.bind ((returns_setTag _).bind ?_))
  rw [kinds_some, update_kinds]
  have made : Returns
      (At (without contents name) (kinds isResolvedKind (Function.update contents name (contents other)) stale))
      (copyAs isResolvedKind (vectors copyThrows) (some name) (some other) (isResolvedKind (contents other))) () _ :=
    returns_copyAs (Function.update_self ..) (without_other apart) rfl quiet
  rw [Function.update_idem, update_filled] at made
  exact made.weaken (fun _ at_ => at_) fun _ at_ => ⟨stale, at_⟩

theorem performs_moveAssign (apart : name ≠ other) :
    Performs isResolvedKind contents (moveAssign copyThrows (some name) (some other)) (.ok ())
      (Function.update (movedOut contents other) name (contents other)) := by
  refine .returns fun stale => ?_
  have lives : filled contents none (some name) = some (contents name) := rfl
  refine (returns_clear lives rfl).bind (returns_readTag.bind ((returns_setTag _).bind ?_))
  rw [kinds_some, update_kinds]
  have made : Returns
      (At (without contents name) (kinds isResolvedKind (Function.update contents name (contents other)) stale))
      (moveAs isResolvedKind (vectors copyThrows) (some name) (some other) (isResolvedKind (contents other))) () _ :=
    returns_moveAs (Function.update_self ..) (without_other apart) rfl rfl
  rw [Function.update_idem, update_filled, update_filled, Function.update_comm apart] at made
  have fits : kinds isResolvedKind (Function.update contents name (contents other)) stale =
      kinds isResolvedKind (Function.update (movedOut contents other) name (contents other)) stale := by
    rw [← update_kinds, ← update_kinds, movedOut, kinds_update]
    exact isRight_movedFrom copyThrows _
  exact made.weaken (fun _ at_ => at_) fun _ at_ => represents_of_at (fits ▸ at_)

theorem returns_temporary (held : Held Frame) :
    Returns (At (filled contents (some held)) (kinds isResolvedKind contents (isResolvedKind held))) temporary held
      (Represents isResolvedKind contents) := by
  have lives : filled contents (some held) none = some held := rfl
  have cleared : Returns (At (filled contents (some held)) (kinds isResolvedKind contents (isResolvedKind held)))
      (clear isResolvedKind none) () _ := returns_clear lives rfl
  rw [update_filled_none] at cleared
  exact returns_readTag.bind ((returns_useAs lives rfl).bind (cleared.bind fun _ at_ => ⟨rfl, _, at_⟩))

theorem returns_constructCopy (quiet : copyThrows (contents other) = false) :
    Returns (At (filled contents none) (kinds isResolvedKind contents stale))
      (construct (copyAs isResolvedKind (vectors copyThrows)) none (some other)) ()
      (At (filled contents (some (contents other)))
        (kinds isResolvedKind contents (isResolvedKind (contents other)))) := by
  have lives : filled contents none (some other) = some (contents other) := rfl
  refine returns_readTag.bind ((returns_setTag _).bind ?_)
  rw [update_kinds_none, ← update_filled_none none (some (contents other))]
  exact returns_copyAs rfl lives rfl quiet

theorem fails_constructCopy (throws : copyThrows (contents other) = true) :
    Fails (At (filled contents none) (kinds isResolvedKind contents stale))
      (construct (copyAs isResolvedKind (vectors copyThrows)) none (some other)) .thrown
      (Represents isResolvedKind contents) := by
  have lives : filled contents none (some other) = some (contents other) := rfl
  have throws : (vectors copyThrows).copyThrows (contents other) = true := throws
  refine Fails.second returns_readTag (Fails.second (returns_setTag _) fun holders at_ => ?_)
  obtain ⟨thrown, next⟩ := fails_copyAs lives rfl throws holders at_
  rw [update_kinds_none] at next
  exact ⟨thrown, _, next⟩

theorem returns_constructMove :
    Returns (At (filled contents none) (kinds isResolvedKind contents stale))
      (construct (moveAs isResolvedKind (vectors copyThrows)) none (some other)) ()
      (At (filled (movedOut contents other) (some (contents other)))
        (kinds isResolvedKind (movedOut contents other) (isResolvedKind (contents other)))) := by
  have lives : filled contents none (some other) = some (contents other) := rfl
  refine returns_readTag.bind ((returns_setTag _).bind ?_)
  have same : kinds isResolvedKind (movedOut contents other) (isResolvedKind (contents other)) =
      kinds isResolvedKind contents (isResolvedKind (contents other)) :=
    kinds_update _ (isRight_movedFrom copyThrows _)
  rw [update_kinds_none, same, movedOut, ← update_filled, ← update_filled_none none (some (contents other))]
  exact returns_moveAs rfl lives rfl rfl

theorem performs_copied (other : Fin count) :
    Performs isResolvedKind contents (perform copyThrows resolve (.copied other))
      (if copyThrows (contents other) then .error .thrown else .ok (.held (contents other))) contents := by
  cases throws : copyThrows (contents other) with
  | true => exact .throws fun stale => (fails_constructCopy throws).bind _
  | false =>
    exact .returns fun stale => (returns_constructCopy throws).bind ((returns_temporary _).bind (.pure _ _))

theorem performs_moved (other : Fin count) :
    Performs isResolvedKind contents (perform copyThrows resolve (.moved other)) (.ok (.held (contents other)))
      (movedOut contents other) :=
  .returns fun _ => returns_constructMove.bind ((returns_temporary (contents other)).bind (.pure _ _))

theorem performs_getRawTrace (name : Fin count) :
    Performs isResolvedKind contents (getRawTrace (some name)) (specRawTrace (contents name)) contents := by
  refine performs_readTag ?_
  cases resolved : (contents name).isRight with
  | true =>
    rw [isResolvedKind, specRawTrace, resolved]
    exact performs_throw _
  | false =>
    rw [isResolvedKind, specRawTrace, resolved]
    exact performs_useAs resolved

theorem returns_moveAssign_temporary :
    Returns (At (filled contents (some (.inr []))) (kinds isResolvedKind contents true))
      (moveAssign copyThrows (some name) none) ()
      (At (filled (Function.update contents name (.inr [])) (some (.inr [])))
        (kinds isResolvedKind (Function.update contents name (.inr [])) true)) := by
  have lives : filled contents (some (.inr [])) (some name) = some (contents name) := rfl
  refine (returns_clear lives rfl).bind (returns_readTag.bind ((returns_setTag _).bind ?_))
  have flagged : kinds isResolvedKind contents true none = isResolvedKind (.inr [] : Held Frame) := rfl
  rw [flagged, update_kinds]
  have there : Function.update (filled contents (some (.inr []))) (some name) none none = some (.inr [] : Held Frame) :=
    Function.update_of_ne (Option.some_ne_none name).symm ..
  have made : Returns (At (Function.update (filled contents (some (.inr []))) (some name) none)
        (kinds isResolvedKind (Function.update contents name (.inr [])) true))
      (moveAs isResolvedKind (vectors copyThrows) (some name) none (isResolvedKind (.inr [] : Held Frame))) () _ :=
    returns_moveAs (Function.update_self ..) there rfl rfl
  rw [Function.update_idem, update_filled, update_filled_none] at made
  exact made

/-- The move out of the holder leaves it with an empty trace, of which nothing is seen any more. -/
theorem performs_resolveHeld {trace : RawTrace} (held : contents name = .inl trace) :
    Performs isResolvedKind contents (resolveHeld copyThrows resolve (some name)) (.ok ())
      (Function.update contents name (.inr (resolution resolve trace))) := by
  refine .returns fun stale => ?_
  let emptied := Function.update contents name (.inl [])
  let cleared := Function.update contents name (.inr [])
  have lives : filled contents none (some name) = some (.inl trace) := congrArg some held
  have taken : Returns (At (filled contents none) (kinds isResolvedKind contents stale))
      (onCells (Cells.assign (some name) (.inl []))) ()
        (At (filled emptied none) (kinds isResolvedKind contents stale)) := by
    rw [← update_filled]
    exact returns_onCells (Cells.returns_assign lives _)
  have made : Returns (At (filled emptied none) (kinds isResolvedKind contents stale))
      (onCells (Cells.construct none (.inr []))) ()
      (At (filled emptied (some (.inr []))) (kinds isResolvedKind contents stale)) := by
    have placed : Function.update (filled emptied none) none (some (.inr [])) = filled emptied (some (.inr [])) :=
      update_filled_none none _
    rw [← placed]
    exact returns_onCells (Cells.returns_construct rfl _)
  -- an emptied raw trace is still a raw trace
  have same : kinds isResolvedKind contents true = kinds isResolvedKind emptied true := by
    refine (kinds_update true ?_).symm
    rw [held]
    rfl
  have flagged : Returns (At (filled emptied (some (.inr []))) (kinds isResolvedKind contents stale))
      (setTag none true) () (At (filled emptied (some (.inr []))) (kinds isResolvedKind emptied true)) := by
    have set : Function.update (kinds isResolvedKind contents stale) none true = kinds isResolvedKind contents true :=
      update_kinds_none stale true
    rw [← same, ← set]
    exact returns_setTag true
  have moved : Returns (At (filled emptied (some (.inr []))) (kinds isResolvedKind emptied true))
      (moveAssign copyThrows (some name) none) ()
      (At (filled cleared (some (.inr []))) (kinds isResolvedKind cleared true)) := by
    have settled : Function.update emptied name (.inr []) = cleared := Function.update_idem ..
    rw [← settled]
    exact returns_moveAssign_temporary
  have destroyed : Returns (At (filled cleared (some (.inr []))) (kinds isResolvedKind cleared true))
      (clear isResolvedKind none) () (At (filled cleared none) (kinds isResolvedKind cleared true)) := by
    have gone : Function.update (filled cleared (some (.inr []))) none none = filled cleared none :=
      update_filled_none _ none
    rw [← gone]
    exact returns_clear rfl rfl
  have there : filled cleared none (some name) = some (.inr []) := congrArg some (Function.update_self ..)
  have stored : Returns (At (filled cleared none) (kinds isResolvedKind cleared true))
      (onCells (Cells.assign (some name) (.inr (resolution resolve trace)))) ()
      (Represents isResolvedKind (Function.update contents name (.inr (resolution resolve trace)))) := by
    have assigned : Returns (At (filled cleared none) (kinds isResolvedKind cleared true))
        (onCells (Cells.assign (some name) (.inr (resolution resolve trace)))) () _ :=
      returns_onCells (Cells.returns_assign there _)
    rw [update_filled, Function.update_idem] at assigned
    have fits : kinds isResolvedKind cleared true =
        kinds isResolvedKind (Function.update contents name (.inr (resolution resolve trace))) true := by
      rw [← update_kinds, ← update_kinds]
      rfl
    exact assigned.weaken (fun _ at_ => at_) fun _ at_ => represents_of_at (fits ▸ at_)
  exact (returns_useAs lives rfl).bind (taken.bind (made.bind (flagged.bind (moved.bind (destroyed.bind
    ((returns_useAs there rfl).bind stored))))))

theorem performs_ensureResolved (name : Fin count) :
    Performs isResolvedKind contents (ensureResolved copyThrows resolve (some name)) (.ok ())
      (Function.update contents name (.inr (traceOf resolve (contents name)))) := by
  refine performs_readTag ?_
  cases held : contents name with
  | inl trace => exact performs_resolveHeld held
  | inr frames =>
    have unchanged : Function.update contents name (.inr (traceOf resolve (.inr frames))) = contents :=
      Function.update_eq_self_iff.mpr held.symm
    rw [unchanged]
    exact performs_return ()

theorem performs_getResolvedTrace (name : Fin count) :
    Performs isResolvedKind contents (getResolvedTrace copyThrows resolve (some name))
      (.ok (.inr (traceOf resolve (contents name))))
      (Function.update contents name (.inr (traceOf resolve (contents name)))) := by
  refine (performs_ensureResolved name).bind ?_
  have there : Function.update contents name (.inr (traceOf resolve (contents name))) name =
      .inr (traceOf resolve (contents name)) := Function.update_self ..
  have used : Performs isResolvedKind (Function.update contents name (.inr (traceOf resolve (contents name))))
      (useAs isResolvedKind (some name) true) _ _ := performs_useAs (congrArg isResolvedKind there)
  rw [there] at used
  exact used

theorem performs_getResolvedTraceConst (name : Fin count) :
    Performs isResolvedKind contents (getResolvedTraceConst (some name)) (specResolvedTrace (contents name))
      contents := by
  refine performs_readTag ?_
  cases resolved : (contents name).isRight with
  | true =>
    rw [isResolvedKind, specResolvedTrace, resolved]
    exact performs_useAs resolved
  | false =>
    rw [isResolvedKind, specResolvedTrace, resolved]
    exact performs_throw _

theorem performs (op : HolderOp count) (contents : Fin count → Held Frame)
    (good : AssignsOther copyThrows op contents) :
    Performs isResolvedKind contents (perform copyThrows resolve op) (specPerform copyThrows resolve op contents).1
      (specPerform copyThrows resolve op contents).2 := by
  cases op with
  | copyAssign name other =>
    exact (performs_copyAssign good.1 good.2).map fun _ => (HolderAnswer.done : HolderAnswer Frame)
  | moveAssign name other => exact (performs_moveAssign good).map fun _ => (HolderAnswer.done : HolderAnswer Frame)
  | copied other => exact performs_copied other
  | moved other => exact performs_moved other
  | getRawTrace name => exact (performs_getRawTrace name).map HolderAnswer.held
  | getResolvedTrace name => exact (performs_getResolvedTrace name).map HolderAnswer.held
  | getResolvedTraceConst name => exact (performs_getResolvedTraceConst name).map HolderAnswer.held
  | isResolved name => exact performs_readTag (performs_return _)

theorem assign_breaks {make : HolderName count → HolderName count → Bool → Using count Frame Unit} {ending : Ending}
    (fails : ∀ flag, Fails (At (without contents name) flag)
      (make (some name) (some other) (isResolvedKind (contents other))) ending (At (without contents name) flag))
    {holders : Holders count Frame} (represents : Represents isResolvedKind contents holders) :
    (assign make (some name) (some other) holders).2.cells.object (some name) = none := by
  obtain ⟨stale, at_⟩ := represents
  have lives : filled contents none (some name) = some (contents name) := rfl
  have failed : Fails (At (filled contents none) (kinds isResolvedKind contents stale))
      (assign make (some name) (some other)) ending (At (without contents name) _) :=
    Fails.second (returns_clear lives rfl) (Fails.second returns_readTag (Fails.second (returns_setTag _) (fails _)))
  rw [(failed holders at_).2.1]
  exact Function.update_self ..

theorem breaks (op : HolderOp count) {holders : Holders count Frame}
    (represents : Represents isResolvedKind contents holders)
    (bad : ¬ AssignsOther copyThrows op contents) : Broken (perform copyThrows resolve op holders).2 := by
  have answered : ∀ {command : Using count Frame Unit} {name : Fin count},
      (command holders).2.cells.object (some name) = none →
      ((do command; return (HolderAnswer.done : HolderAnswer Frame)) holders).2.cells.object (some name) = none := by
    intro command name gone
    rw [Command.bind_apply]
    cases (command holders).1 <;> exact gone
  cases op with
  | copyAssign name other =>
    refine ⟨name, answered ?_⟩
    by_cases same : name = other
    · subst same
      exact assign_breaks (fun _ => (fails_useAs (Function.update_self ..)).bind _) represents
    · have throws : copyThrows (contents other) = true := by simpa [AssignsOther, same] using bad
      have throws : (vectors copyThrows).copyThrows (contents other) = true := throws
      exact assign_breaks (fun _ => fails_copyAs (without_other same) rfl throws) represents
  | moveAssign name other =>
    have same : name = other := not_not.mp bad
    subst same
    exact ⟨name, answered (assign_breaks (fun _ => (fails_useAs (Function.update_self ..)).bind _) represents)⟩
  | copied _ | moved _ | getRawTrace _ | getResolvedTrace _ | getResolvedTraceConst _ | isResolved _ =>
    exact absurd trivial bad

end Refinement

section Keeping

variable {copyThrows resolve} {sound : Cells (HolderName count) (Held Frame) → Prop} {may : HolderName count → Prop}
  {name other : HolderName count}

theorem keeps_construct {make : HolderName count → HolderName count → Bool → Using count Frame Unit}
    (keeps : ∀ resolved, Keeps sound (make name other resolved)) : Keeps sound (construct make name other) :=
  keeps_readTag.bind fun resolved _ => (keeps_setTag resolved).bind fun _ _ => keeps resolved

theorem keeps_copyAssign (kept : Cells.Kept sound may) (here : may name) :
    Keeps sound (copyAssign copyThrows name other) :=
  (keeps_clear kept).bind fun _ _ => keeps_construct fun _ => keeps_copyAs kept here

theorem keeps_moveAssign (kept : Cells.Kept sound may) (here : may name) :
    Keeps sound (moveAssign copyThrows name other) :=
  (keeps_clear kept).bind fun _ _ => keeps_construct fun _ => keeps_moveAs kept here

theorem keeps_temporary (kept : Cells.Kept sound may) : Keeps sound (temporary : Using count Frame (Held Frame)) :=
  keeps_readTag.bind fun _ _ => (keeps_useAs kept).bind fun _ _ => (keeps_clear kept).bind fun _ _ => keeps_return _

theorem keeps_resolveHeld (kept : Cells.Kept sound may) (makes : may none) (here : may name) :
    Keeps sound (resolveHeld copyThrows resolve name) :=
  (keeps_useAs kept).bind fun _ _ => (keeps_onCells (kept.assign name _)).bind fun _ _ =>
    (keeps_onCells (kept.construct none _ makes)).bind fun _ _ => (keeps_setTag true).bind fun _ _ =>
      (keeps_moveAssign kept here).bind fun _ _ => (keeps_clear kept).bind fun _ _ =>
        (keeps_useAs kept).bind fun _ _ => keeps_onCells (kept.assign name _)

def target : HolderOp count → Option (Fin count)
  | .copyAssign name _ | .moveAssign name _ | .getResolvedTrace name => some name
  | _ => none

variable (copyThrows resolve) in
theorem keeps_perform (kept : Cells.Kept sound may) (op : HolderOp count) (makes : may none)
    (fills : ∀ name, target op = some name → may (some name)) : Keeps sound (perform copyThrows resolve op) := by
  cases op with
  | copyAssign name other => exact (keeps_copyAssign kept (fills name rfl)).bind fun _ _ => keeps_return _
  | moveAssign name other => exact (keeps_moveAssign kept (fills name rfl)).bind fun _ _ => keeps_return _
  | copied other =>
    exact (keeps_construct fun _ => keeps_copyAs kept makes).bind fun _ _ =>
      (keeps_temporary kept).bind fun _ _ => keeps_return _
  | moved other =>
    exact (keeps_construct fun _ => keeps_moveAs kept makes).bind fun _ _ =>
      (keeps_temporary kept).bind fun _ _ => keeps_return _
  | getRawTrace name =>
    exact (keeps_readTag.bind fun _ _ => (keeps_throw _).ite (keeps_useAs kept)).bind fun _ _ => keeps_return _
  | getResolvedTrace name =>
    have ensured : Keeps sound (ensureResolved copyThrows resolve (some name)) :=
      keeps_readTag.bind fun _ _ => (keeps_return ()).ite (keeps_resolveHeld kept makes (fills name rfl))
    exact (ensured.bind fun _ _ => keeps_useAs kept).bind fun _ _ => keeps_return _
  | getResolvedTraceConst name =>
    exact (keeps_readTag.bind fun _ _ => (keeps_useAs kept).ite (keeps_throw _)).bind fun _ _ => keeps_return _
  | isResolved name => exact keeps_readTag.bind fun _ _ => keeps_return _

end Keeping

section Runs

variable {copyThrows resolve}

theorem fails_getResolvedTrace {object : HolderName count → Option (Held Frame)} {flag : HolderName count → Bool}
    {name : HolderName count} (raw : object name = none) :
    Fails (At object flag) (getResolvedTrace copyThrows resolve name) (.misuse .usesDead) (At object flag) := by
  cases resolved : flag name with
  | true =>
    have nothing : Returns (At object flag) (ensureResolved copyThrows resolve name) () (At object flag) := by
      refine returns_readTag.bind ?_
      rw [resolved]
      exact .pure _ _
    exact Fails.second nothing (fails_useAs raw)
  | false =>
    refine Fails.bind (Fails.second returns_readTag ?_) _
    rw [resolved]
    exact (fails_useAs raw).bind _

/-- Nothing gets into an empty union, for what could fill it begins with a destructor or a use. -/
theorem broken_perform (op : HolderOp count) (holders : Holders count Frame) (broken : Broken holders) :
    Misused (perform copyThrows resolve op holders).1 ∨ Broken (perform copyThrows resolve op holders).2 := by
  obtain ⟨name, raw⟩ := broken
  by_cases filled : target op = some name
  · left
    cases op with
    | copyAssign target other =>
      cases filled
      have cleared : clear isResolvedKind (some name) holders = (.error (.misuse .destroysDead), holders) :=
          clear_raw raw
      refine ⟨.destroysDead, ?_⟩
      rw [perform, copyAssign, assign, Command.bind_apply, Command.bind_apply, cleared]
    | moveAssign target other =>
      cases filled
      have cleared : clear isResolvedKind (some name) holders = (.error (.misuse .destroysDead), holders) :=
          clear_raw raw
      refine ⟨.destroysDead, ?_⟩
      rw [perform, moveAssign, assign, Command.bind_apply, Command.bind_apply, cleared]
    | getResolvedTrace target =>
      cases filled
      have failed : Fails (At holders.cells.object holders.tag) (perform copyThrows resolve (.getResolvedTrace name))
          (.misuse .usesDead) _ := (fails_getResolvedTrace raw).bind _
      exact ⟨.usesDead, (failed holders ⟨rfl, rfl⟩).1⟩
    | _ => nomatch filled
  · refine .inr ⟨name, ?_⟩
    have keeps := keeps_perform copyThrows resolve (Cells.kept_raw (some name)) op nofun fun other known equal =>
      filled (known.trans equal)
    exact (keeps holders raw).1

/-- A run and the destructors after it are defined exactly if no holder is assigned to itself and no copy that is
assigned throws. Then each holder has its raw trace until that is resolved, once. -/
theorem holders_defined_iff (copyThrows : Held Frame → Bool) (resolve : RawTrace → Except Unit (List Frame))
    (contents : Fin count → Held Frame) (ops : List (HolderOp count)) :
    let ran := run (perform copyThrows resolve) ops (initial isResolvedKind false contents)
    let good := EveryStep (specPerform copyThrows resolve) (AssignsOther copyThrows) ops contents
    ((∀ answer ∈ ran.1, ¬ Misused answer) ∧ Ends isResolvedKind ran.2 ↔ good) ∧
      (good → ran.1 = (run (specPerform copyThrows resolve) ops contents).1 ∧
        (destroyAll isResolvedKind (List.finRange count) ran.2).2.cells.constructed =
          (destroyAll isResolvedKind (List.finRange count) ran.2).2.cells.destroyed) :=
  run_defined_iff false performs (specPerform_clean copyThrows resolve)
    (fun op => keeps_perform copyThrows resolve Cells.kept_balanced op trivial fun _ _ => trivial)
    (fun op _ _ represents bad => breaks op represents bad) broken_perform ops contents

end Runs

end LazyTraceHolder

end Cpptrace.Exceptions
