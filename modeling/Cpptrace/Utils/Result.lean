import Cpptrace.Library.Unions

/-! `Result`: a value or an error, in one storage.

A flag says which of the two is there. An assignment destroys what is there
before it makes the other one, so there is nothing in the storage in between.
-/

set_option autoImplicit false

namespace Cpptrace.Utils

open Cpptrace.Library Tagged

inductive Member where
  | value
  | error
  deriving DecidableEq, Repr

abbrev ResultName (count : Nat) := Option (Fin count)

/-- The union of each, with `active` beside it. -/
abbrev Results (count : Nat) (T E : Type) := Variables count (T ⊕ E) Member

inductive ResultOp (count : Nat) (T : Type) where
  | copyAssign (name other : Fin count)
  | moveAssign (name other : Fin count)
  | moved (other : Fin count)
  | unwrapValue (name : Fin count)
  | unwrapError (name : Fin count)
  | value (name : Fin count)
  | error (name : Fin count)
  | takeValue (name : Fin count)
  | takeError (name : Fin count)
  | valueOr (name : Fin count) (default : T)
  | dropError (name : Fin count)

namespace Result

variable {count : Nat} {T E : Type}

def memberOf : T ⊕ E → Member
  | .inl _ => .value
  | .inr _ => .error

def either (values : Payload T) (errors : Payload E) : Payload (T ⊕ E) :=
  ⟨Sum.elim values.copyThrows errors.copyThrows, Sum.elim values.moveThrows errors.moveThrows,
    Sum.map values.movedFrom errors.movedFrom⟩

abbrev Using (count : Nat) (T E : Type) := Tagged.Using (ResultName count) (T ⊕ E) Member

abbrev active (name : ResultName count) : Using count T E Member := readTag name

abbrev setActive (name : ResultName count) (member : Member) : Using count T E Unit := setTag name member

abbrev destroy (name : ResultName count) : Using count T E Unit := clear memberOf name

variable (values : Payload T) (errors : Payload E)

def assign (construct : ResultName count → ResultName count → Member → Using count T E Unit) (name other : Fin count) :
    Using count T E Unit :=
  if name = other then return ()
  else do
    destroy (some name)
    let member ← active (some other)
    construct (some name) (some other) member
    setActive (some name) member

def copyAssign (name other : Fin count) : Using count T E Unit :=
  assign (copyAs memberOf (either values errors)) name other

def moveAssign (name other : Fin count) : Using count T E Unit :=
  assign (moveAs memberOf (either values errors)) name other

def constructMove (name other : ResultName count) : Using count T E Unit := do
  let member ← active other
  setActive name member
  moveAs memberOf (either values errors) name other member

/-- One way on if the flag names that member, which is used then, and another if not. -/
def ifActive {α : Type} (name : ResultName count) (member : Member) (found : T ⊕ E → Using count T E α)
    (absent : Using count T E α) : Using count T E α := do
  if (← active name) = member then useAs memberOf name member >>= found else absent

/-- `unwrap_value` and `unwrap_error`, whose `ASSERT` throws. -/
def unwrap (member : Member) (name : ResultName count) : Using count T E (T ⊕ E) :=
  ifActive name member (fun object => return object) (throw .thrown)

def unwrapValue (name : ResultName count) : Using count T E (T ⊕ E) := unwrap .value name

def unwrapError (name : ResultName count) : Using count T E (T ⊕ E) := unwrap .error name

def copied (member : Member) (name : ResultName count) : Using count T E (Option (T ⊕ E)) :=
  ifActive name member
    (fun object => if (either values errors).copyThrows object then throw .thrown else return some object) (return none)

def value (name : ResultName count) : Using count T E (Option (T ⊕ E)) := copied values errors .value name

def error (name : ResultName count) : Using count T E (Option (T ⊕ E)) := copied values errors .error name

def taken (member : Member) (name : ResultName count) : Using count T E (Option (T ⊕ E)) :=
  ifActive name member
    (fun object =>
      if (either values errors).moveThrows object then throw .thrown
      else do
        onCells (Cells.assign name ((either values errors).movedFrom object))
        return some object)
    (return none)

/-- `value` of a result that is not needed any more. -/
def takeValue (name : ResultName count) : Using count T E (Option (T ⊕ E)) := taken values errors .value name

def takeError (name : ResultName count) : Using count T E (Option (T ⊕ E)) := taken values errors .error name

def valueOr (name : ResultName count) (default : T) : Using count T E (T ⊕ E) := do
  let chosen ← ifActive name .value (fun object => return object) (return .inl default)
  if (either values errors).copyThrows chosen then throw .thrown else return chosen

def dropError (name : ResultName count) : Using count T E Unit := do
  if (← active name) = .error then discard (unwrapError name) else return ()

def temporary : Using count T E (T ⊕ E) := do
  let member ← active none
  let object ← useAs memberOf none member
  destroy none
  return object

def perform : ResultOp count T → Using count T E (Option (T ⊕ E))
  | .copyAssign name other => do copyAssign values errors name other; return none
  | .moveAssign name other => do moveAssign values errors name other; return none
  | .moved other => do constructMove values errors none (some other); return some (← temporary)
  | .unwrapValue name => do return some (← unwrapValue (some name))
  | .unwrapError name => do return some (← unwrapError (some name))
  | .value name => value values errors (some name)
  | .error name => error values errors (some name)
  | .takeValue name => takeValue values errors (some name)
  | .takeError name => takeError values errors (some name)
  | .valueOr name default => do return some (← valueOr values errors (some name) default)
  | .dropError name => do dropError (some name); return none

section Specification

def specUnwrap (member : Member) (content : T ⊕ E) : Except Ending (T ⊕ E) :=
  if memberOf content = member then .ok content else .error .thrown

def specCopied (member : Member) (content : T ⊕ E) : Except Ending (Option (T ⊕ E)) :=
  if memberOf content = member then
    if (either values errors).copyThrows content then .error .thrown else .ok (some content)
  else .ok none

def specValueOr (content : T ⊕ E) (default : T) : Except Ending (T ⊕ E) :=
  let chosen := if memberOf content = .value then content else .inl default
  if (either values errors).copyThrows chosen then .error .thrown else .ok chosen

def movedOut (contents : Fin count → T ⊕ E) (other : Fin count) : Fin count → T ⊕ E :=
  Function.update contents other ((either values errors).movedFrom (contents other))

def specTaken (member : Member) (name : Fin count) (contents : Fin count → T ⊕ E) :
    Except Ending (Option (T ⊕ E)) × (Fin count → T ⊕ E) :=
  if memberOf (contents name) = member then
    if (either values errors).moveThrows (contents name) then (.error .thrown, contents)
    else (.ok (some (contents name)), movedOut values errors contents name)
  else (.ok none, contents)

def specPerform (op : ResultOp count T) (contents : Fin count → T ⊕ E) :
    Except Ending (Option (T ⊕ E)) × (Fin count → T ⊕ E) :=
  match op with
  | .copyAssign name other =>
      if name = other then (.ok none, contents)
      else if (either values errors).copyThrows (contents other) then (.error .thrown, contents)
      else (.ok none, Function.update contents name (contents other))
  | .moveAssign name other =>
      if name = other then (.ok none, contents)
      else if (either values errors).moveThrows (contents other) then (.error .thrown, contents)
      else (.ok none, Function.update (movedOut values errors contents other) name (contents other))
  | .moved other =>
      if (either values errors).moveThrows (contents other) then (.error .thrown, contents)
      else (.ok (some (contents other)), movedOut values errors contents other)
  | .unwrapValue name => ((specUnwrap .value (contents name)).map some, contents)
  | .unwrapError name => ((specUnwrap .error (contents name)).map some, contents)
  | .value name => (specCopied values errors .value (contents name), contents)
  | .error name => (specCopied values errors .error (contents name), contents)
  | .takeValue name => specTaken values errors .value name contents
  | .takeError name => specTaken values errors .error name contents
  | .valueOr name default => ((specValueOr values errors (contents name) default).map some, contents)
  | .dropError _ => (.ok none, contents)

def AssignsQuietly (op : ResultOp count T) (contents : Fin count → T ⊕ E) : Prop :=
  match op with
  | .copyAssign name other => name = other ∨ (either values errors).copyThrows (contents other) = false
  | .moveAssign name other => name = other ∨ (either values errors).moveThrows (contents other) = false
  | _ => True

theorem specPerform_clean (op : ResultOp count T) (contents : Fin count → T ⊕ E) (misuse : Misuse) :
    (specPerform values errors op contents).1 ≠ .error (.misuse misuse) := by
  cases op
  case dropError => nofun
  all_goals
    simp only [specPerform, specUnwrap, specCopied, specTaken, specValueOr]
    split_ifs <;> nofun

end Specification

section Refinement

variable {values errors}

theorem memberOf_movedFrom (content : T ⊕ E) :
    memberOf ((either values errors).movedFrom content) = memberOf content := by
  cases content <;> rfl

variable {contents : Fin count → T ⊕ E}

theorem kinds_movedOut (other : Fin count) (local_ : Member) :
    kinds memberOf (movedOut values errors contents other) local_ = kinds memberOf contents local_ :=
  kinds_update local_ (memberOf_movedFrom _)

variable {stale : Member} {name other : Fin count}

/-- Between the destructor and the constructor of an assignment there is nothing in the union. -/
theorem returns_assign (name other : Fin count) (apart : name ≠ other)
    {construct : ResultName count → ResultName count → Member → Using count T E Unit} {next : Fin count → T ⊕ E}
    (constructs : Returns (At (Function.update (filled contents none) (some name) none) (kinds memberOf contents stale))
      (construct (some name) (some other) (memberOf (contents other))) ()
      (At (filled next none) (kinds memberOf contents stale)))
    (fits : Function.update (kinds memberOf contents stale) (some name) (memberOf (contents other)) =
      kinds memberOf next stale) :
    Returns (At (filled contents none) (kinds memberOf contents stale)) (assign construct name other) ()
      (Represents memberOf next) := by
  rw [assign, if_neg apart]
  have lives : filled contents none (some name) = some (contents name) := rfl
  refine (returns_clear lives rfl).bind (returns_readTag.bind (constructs.bind ?_))
  exact (returns_setTag _).weaken (fun _ at_ => at_) fun results at_ => represents_of_at (fits ▸ at_)

theorem performs_copyAssign (quiet : name = other ∨ (either values errors).copyThrows (contents other) = false) :
    Performs memberOf contents (copyAssign values errors name other) (.ok ())
      (if name = other then contents else Function.update contents name (contents other)) := by
  by_cases same : name = other
  · rw [if_pos same, copyAssign, assign, if_pos same]
    exact .returns fun stale results at_ => ⟨rfl, stale, at_⟩
  · rw [if_neg same]
    have quiet := quiet.resolve_left same
    have lives : Function.update (filled contents none) (some name) none (some other) = some (contents other) :=
      Function.update_of_ne (fun equal => same (Option.some.inj equal).symm) ..
    refine .returns fun stale => returns_assign name other same ?_ (update_kinds name stale _)
    have constructed : Returns
        (At (Function.update (filled contents none) (some name) none) (kinds memberOf contents stale))
        (copyAs memberOf (either values errors) (some name) (some other) (memberOf (contents other))) () _ :=
      returns_copyAs (Function.update_self ..) lives rfl quiet
    rw [Function.update_idem, update_filled] at constructed
    exact constructed

theorem performs_moveAssign (quiet : name = other ∨ (either values errors).moveThrows (contents other) = false) :
    Performs memberOf contents (moveAssign values errors name other) (.ok ())
      (if name = other then contents
        else Function.update (movedOut values errors contents other) name (contents other)) := by
  by_cases same : name = other
  · rw [if_pos same, moveAssign, assign, if_pos same]
    exact .returns fun stale results at_ => ⟨rfl, stale, at_⟩
  · rw [if_neg same]
    have quiet := quiet.resolve_left same
    have lives : Function.update (filled contents none) (some name) none (some other) = some (contents other) :=
      Function.update_of_ne (fun equal => same (Option.some.inj equal).symm) ..
    have fits : ∀ stale, Function.update (kinds memberOf contents stale) (some name) (memberOf (contents other)) =
        kinds memberOf (Function.update (movedOut values errors contents other) name (contents other)) stale := by
      intro stale
      rw [← update_kinds, kinds_movedOut]
    refine .returns fun stale => returns_assign name other same ?_ (fits stale)
    have constructed : Returns
        (At (Function.update (filled contents none) (some name) none) (kinds memberOf contents stale))
        (moveAs memberOf (either values errors) (some name) (some other) (memberOf (contents other))) () _ :=
      returns_moveAs (Function.update_self ..) lives rfl quiet
    rw [Function.update_idem, update_filled, update_filled, Function.update_comm same] at constructed
    exact constructed

theorem returns_temporary (content : T ⊕ E) :
    Returns (At (filled contents (some content)) (kinds memberOf contents (memberOf content))) temporary content
      (Represents memberOf contents) := by
  have lives : filled contents (some content) none = some content := rfl
  have destroyed : Returns (At (filled contents (some content)) (kinds memberOf contents (memberOf content)))
      (destroy none) () _ :=
    returns_clear lives rfl
  rw [update_filled_none] at destroyed
  exact returns_readTag.bind ((returns_useAs lives rfl).bind (destroyed.bind fun _ at_ => ⟨rfl, _, at_⟩))

theorem returns_constructMove (quiet : (either values errors).moveThrows (contents other) = false) :
    Returns (At (filled contents none) (kinds memberOf contents stale))
      (constructMove values errors none (some other)) ()
      (At (filled (movedOut values errors contents other) (some (contents other)))
        (kinds memberOf (movedOut values errors contents other) (memberOf (contents other)))) := by
  have moved : Returns (At (filled contents none) (kinds memberOf contents (memberOf (contents other))))
      (moveAs memberOf (either values errors) none (some other) (memberOf (contents other))) () _ :=
    returns_moveAs rfl rfl rfl quiet
  rw [update_filled_none, update_filled] at moved
  refine returns_readTag.bind ((returns_setTag _).bind ?_)
  rw [update_kinds_none, kinds_movedOut]
  exact moved

theorem fails_constructMove (throws : (either values errors).moveThrows (contents other) = true) :
    Fails (At (filled contents none) (kinds memberOf contents stale))
      (constructMove values errors none (some other)) .thrown
      (Represents memberOf contents) := by
  refine Fails.second returns_readTag (Fails.second (returns_setTag _) ?_)
  rw [update_kinds_none]
  intro results at_
  have lives : filled contents none (some other) = some (contents other) := rfl
  obtain ⟨thrown, next⟩ := fails_moveAs lives rfl throws results at_
  exact ⟨thrown, _, next⟩

theorem performs_moved (other : Fin count) :
    Performs memberOf contents (perform values errors (.moved other))
      (specPerform values errors (.moved other) contents).1
      (specPerform values errors (.moved other) contents).2 := by
  rw [specPerform]
  cases throws : (either values errors).moveThrows (contents other) with
  | true => exact .throws fun stale => (fails_constructMove throws).bind _
  | false =>
    exact .returns fun stale => (returns_constructMove throws).bind ((returns_temporary _).bind (.pure _ _))

section Reading

variable {α : Type} {member : Member} {found : T ⊕ E → Using count T E α} {absent : Using count T E α}
  {outcome : Except Ending α} {next : Fin count → T ⊕ E}

theorem performs_ifActive
    (there : memberOf (contents name) = member → Performs memberOf contents (found (contents name)) outcome next)
    (gone : memberOf (contents name) ≠ member → Performs memberOf contents absent outcome next) :
    Performs memberOf contents (ifActive (some name) member found absent) outcome next := by
  refine performs_readTag ?_
  split
  next here => exact (performs_useAs here).bind (there here)
  next absent => exact gone absent

theorem performs_unwrap (member : Member) (name : Fin count) :
    Performs memberOf contents (unwrap member (some name) : Using count T E (T ⊕ E)) (specUnwrap member (contents name))
      contents := by
  unfold specUnwrap
  split
  next here => exact performs_ifActive (fun _ => performs_return _) (absurd here)
  next absent => exact performs_ifActive (fun here => absurd here absent) fun _ => performs_throw _

theorem performs_copied (member : Member) (name : Fin count) :
    Performs memberOf contents (copied values errors member (some name))
      (specCopied values errors member (contents name)) contents := by
  unfold specCopied
  split
  next here =>
    refine performs_ifActive (fun _ => ?_) (absurd here)
    split
    next => exact performs_throw _
    next => exact performs_return _
  next absent => exact performs_ifActive (fun here => absurd here absent) fun _ => performs_return _

theorem performs_taken (member : Member) (name : Fin count) :
    Performs memberOf contents (taken values errors member (some name))
      (specTaken values errors member name contents).1 (specTaken values errors member name contents).2 := by
  unfold specTaken
  split
  next here =>
    refine performs_ifActive (fun _ => ?_) (absurd here)
    split
    next => exact performs_throw _
    next =>
      have lives : filled contents none (some name) = some (contents name) := rfl
      have assigned : ∀ stale, Returns (At (filled contents none) (kinds memberOf contents stale))
          (onCells (Cells.assign (some name) ((either values errors).movedFrom (contents name)))) ()
          (At (filled (movedOut values errors contents name) none)
            (kinds memberOf (movedOut values errors contents name) stale)) := by
        intro stale
        rw [kinds_movedOut, movedOut, ← update_filled]
        exact returns_onCells (Cells.returns_assign lives _)
      exact .returns fun stale => (assigned stale).bind fun _ at_ => ⟨rfl, stale, at_⟩
  next absent => exact performs_ifActive (fun here => absurd here absent) fun _ => performs_return _

theorem performs_valueOr (name : Fin count) (default : T) :
    Performs memberOf contents (valueOr values errors (some name) default)
      (specValueOr values errors (contents name) default) contents := by
  have chosen : Performs memberOf contents
      (ifActive (some name) .value (fun object => return object) (return .inl default) : Using count T E (T ⊕ E))
      (.ok (if memberOf (contents name) = .value then contents name else .inl default)) contents := by
    split
    next here => exact performs_ifActive (fun _ => performs_return _) (absurd here)
    next absent => exact performs_ifActive (fun here => absurd here absent) fun _ => performs_return _
  intro results represents
  obtain ⟨same, represents⟩ := chosen results represents
  rw [valueOr, Command.bind_apply, same, specValueOr]
  dsimp only
  generalize (if memberOf (contents name) = .value then contents name else .inl default) = content
  split
  next => exact performs_throw _ _ represents
  next => exact performs_return _ _ represents

end Reading

theorem performs (op : ResultOp count T) (quiet : AssignsQuietly values errors op contents) :
    Performs memberOf contents (perform values errors op) (specPerform values errors op contents).1
      (specPerform values errors op contents).2 := by
  cases op with
  | copyAssign name other =>
    have quiet : name = other ∨ (either values errors).copyThrows (contents other) = false := quiet
    have performed := (performs_copyAssign quiet).map fun _ => (none : Option (T ⊕ E))
    rw [specPerform]
    by_cases same : name = other
    · rw [if_pos same] at performed ⊢
      exact performed
    · rw [if_neg same] at performed ⊢
      rw [quiet.resolve_left same]
      exact performed
  | moveAssign name other =>
    have quiet : name = other ∨ (either values errors).moveThrows (contents other) = false := quiet
    have performed := (performs_moveAssign quiet).map fun _ => (none : Option (T ⊕ E))
    rw [specPerform]
    by_cases same : name = other
    · rw [if_pos same] at performed ⊢
      exact performed
    · rw [if_neg same] at performed ⊢
      rw [quiet.resolve_left same]
      exact performed
  | moved other => exact performs_moved other
  | unwrapValue name => exact (performs_unwrap .value name).map some
  | unwrapError name => exact (performs_unwrap .error name).map some
  | value name => exact performs_copied .value name
  | error name => exact performs_copied .error name
  | takeValue name => exact performs_taken .value name
  | takeError name => exact performs_taken .error name
  | valueOr name default => exact (performs_valueOr name default).map some
  | dropError name =>
    have dropped : Performs memberOf contents (dropError (some name) : Using count T E Unit) (.ok ()) contents := by
      refine performs_readTag ?_
      split
      next here =>
        have unwrapped : Performs memberOf contents (unwrapError (some name)) (specUnwrap .error (contents name))
            contents :=
          performs_unwrap .error name
        rw [specUnwrap, if_pos here] at unwrapped
        exact unwrapped.map fun _ => ()
      next => exact performs_return ()
    exact dropped.map fun _ => none

/-- A throw between the destructor and the constructor leaves nothing in the union. -/
theorem assign_breaks {construct : ResultName count → ResultName count → Member → Using count T E Unit}
    (apart : name ≠ other)
    (throws : ∀ stale, Fails
      (At (Function.update (filled contents none) (some name) none) (kinds memberOf contents stale))
      (construct (some name) (some other) (memberOf (contents other))) .thrown
      (At (Function.update (filled contents none) (some name) none) (kinds memberOf contents stale)))
    {results : Results count T E} (represents : Represents memberOf contents results) :
    (assign construct name other results).2.cells.object (some name) = none := by
  obtain ⟨stale, at_⟩ := represents
  have lives : filled contents none (some name) = some (contents name) := rfl
  have failed : Fails (At (filled contents none) (kinds memberOf contents stale)) (assign construct name other) .thrown
      (At (Function.update (filled contents none) (some name) none) (kinds memberOf contents stale)) := by
    rw [assign, if_neg apart]
    refine Fails.second (returns_clear lives rfl) (Fails.second returns_readTag ?_)
    exact (throws stale).bind _
  rw [(failed results at_).2.1]
  exact Function.update_self ..

theorem breaks (op : ResultOp count T) (loud : ¬ AssignsQuietly values errors op contents) {results : Results count T E}
    (represents : Represents memberOf contents results) :
    ∃ name : Fin count, (perform values errors op results).2.cells.object (some name) = none := by
  have done : ∀ {command : Using count T E Unit} {name : Fin count},
      (command results).2.cells.object (some name) = none →
      ((do command; return (none : Option (T ⊕ E))) results).2.cells.object (some name) = none := by
    intro command name gone
    rw [Command.bind_apply]
    cases (command results).1 <;> exact gone
  have lives : ∀ {name other : Fin count}, name ≠ other →
      Function.update (filled contents none) (some name) none (some other) = some (contents other) := fun apart =>
    Function.update_of_ne (fun equal => apart (Option.some.inj equal).symm) ..
  cases op with
  | copyAssign name other =>
    obtain ⟨apart, throws⟩ := not_or.mp loud
    exact ⟨name, done (assign_breaks apart (fun _ => fails_copyAs (lives apart) rfl (Bool.not_eq_false _ ▸ throws))
      represents)⟩
  | moveAssign name other =>
    obtain ⟨apart, throws⟩ := not_or.mp loud
    exact ⟨name, done (assign_breaks apart (fun _ => fails_moveAs (lives apart) rfl (Bool.not_eq_false _ ▸ throws))
      represents)⟩
  | moved _ | unwrapValue _ | unwrapError _ | value _ | error _ | takeValue _ | takeError _ | valueOr _ _
  | dropError _ =>
    exact absurd trivial loud

end Refinement

section Keeping

variable {values errors} {sound : Cells (ResultName count) (T ⊕ E) → Prop} {may : ResultName count → Prop}
  {name other : ResultName count} {member : Member}

theorem keeps_assign (kept : Cells.Kept sound may)
    {construct : ResultName count → ResultName count → Member → Using count T E Unit} {name other : Fin count}
    (keeps : ∀ member, Keeps sound (construct (some name) (some other) member)) :
    Keeps sound (assign construct name other) :=
  (keeps_return ()).ite <| (keeps_clear kept).bind fun _ _ => keeps_readTag.bind fun member _ =>
    (keeps member).bind fun _ _ => keeps_setTag member

theorem keeps_ifActive {α : Type} (kept : Cells.Kept sound may) {found : T ⊕ E → Using count T E α}
    {absent : Using count T E α} (there : ∀ object, Keeps sound (found object)) (gone : Keeps sound absent) :
    Keeps sound (ifActive name member found absent) :=
  keeps_readTag.bind fun _ _ => ((keeps_useAs kept).bind fun object _ => there object).ite gone

theorem keeps_unwrap (kept : Cells.Kept sound may) : Keeps sound (unwrap member name : Using count T E (T ⊕ E)) :=
  keeps_ifActive kept (fun _ => keeps_return _) (keeps_throw _)

theorem keeps_copied (kept : Cells.Kept sound may) : Keeps sound (copied values errors member name) :=
  keeps_ifActive kept (fun _ => (keeps_throw _).ite (keeps_return _)) (keeps_return _)

theorem keeps_taken (kept : Cells.Kept sound may) : Keeps sound (taken values errors member name) :=
  keeps_ifActive kept
    (fun _ => (keeps_throw _).ite <| (keeps_onCells (kept.assign name _)).bind fun _ _ => keeps_return _)
    (keeps_return _)

theorem keeps_temporary (kept : Cells.Kept sound may) : Keeps sound (temporary : Using count T E (T ⊕ E)) :=
  keeps_readTag.bind fun _ _ => (keeps_useAs kept).bind fun _ _ => (keeps_clear kept).bind fun _ _ => keeps_return _

def target : ResultOp count T → Option (Fin count)
  | .copyAssign name _ | .moveAssign name _ => some name
  | _ => none

variable (values errors) in
theorem keeps_perform (kept : Cells.Kept sound may) (op : ResultOp count T) (makes : may none)
    (assigns : ∀ name, target op = some name → may (some name)) : Keeps sound (perform values errors op) := by
  cases op with
  | copyAssign name other =>
    exact (keeps_assign kept fun _ => keeps_copyAs kept (assigns name rfl)).bind fun _ _ => keeps_return none
  | moveAssign name other =>
    exact (keeps_assign kept fun _ => keeps_moveAs kept (assigns name rfl)).bind fun _ _ => keeps_return none
  | moved other =>
    have made : Keeps sound (constructMove values errors none (some other)) :=
      keeps_readTag.bind fun _ _ => (keeps_setTag _).bind fun _ _ => keeps_moveAs kept makes
    exact made.bind fun _ _ => (keeps_temporary kept).bind fun _ _ => keeps_return _
  | unwrapValue name => exact (keeps_unwrap kept).bind fun _ _ => keeps_return _
  | unwrapError name => exact (keeps_unwrap kept).bind fun _ _ => keeps_return _
  | value name => exact keeps_copied kept
  | error name => exact keeps_copied kept
  | takeValue name => exact keeps_taken kept
  | takeError name => exact keeps_taken kept
  | valueOr name default =>
    have chosen : Keeps sound (ifActive (some name) .value (fun object => return object) (return .inl default) :
        Using count T E (T ⊕ E)) := keeps_ifActive kept (fun _ => keeps_return _) (keeps_return _)
    exact (chosen.bind fun _ _ => (keeps_throw _).ite (keeps_return _)).bind fun _ _ => keeps_return _
  | dropError name =>
    exact (keeps_readTag.bind fun _ _ =>
      ((keeps_unwrap kept).bind fun _ _ => keeps_return ()).ite (keeps_return ())).bind
      fun _ _ => keeps_return none

end Keeping

section Runs

variable {values errors}

/-- Nothing can be put where nothing is: an assignment begins with a destructor. -/
theorem assign_broken {construct : ResultName count → ResultName count → Member → Using count T E Unit}
    {name other : Fin count} {results : Results count T E} (raw : results.cells.object (some name) = none) :
    let ran :=
      (do assign construct name other; return (none : Option (T ⊕ E)) : Using count T E (Option (T ⊕ E))) results
    Misused ran.1 ∨ Broken ran.2 := by
  by_cases same : name = other
  · rw [assign, if_pos same]
    exact .inr ⟨name, raw⟩
  · have cleared : destroy (some name) results = (.error (.misuse .destroysDead), results) := clear_raw raw
    rw [assign, if_neg same, Command.bind_apply, Command.bind_apply, cleared]
    exact .inl ⟨.destroysDead, rfl⟩

theorem broken_perform (op : ResultOp count T) (results : Results count T E) (broken : Broken results) :
    Misused (perform values errors op results).1 ∨ Broken (perform values errors op results).2 := by
  obtain ⟨name, raw⟩ := broken
  by_cases assigned : target op = some name
  · cases op with
    | copyAssign target other =>
      cases assigned
      exact assign_broken raw
    | moveAssign target other =>
      cases assigned
      exact assign_broken raw
    | _ => nomatch assigned
  · refine .inr ⟨name, ?_⟩
    have keeps := keeps_perform values errors (Cells.kept_raw (some name)) op nofun fun other known equal =>
      assigned (known.trans equal)
    exact (keeps results raw).1

/-- A run and the destructors after it are defined exactly if no assignment of the run throws. Then the results
answer as contents that are a value or an error, and what was made is destroyed. -/
theorem results_defined_iff (values : Payload T) (errors : Payload E) (contents : Fin count → T ⊕ E)
    (ops : List (ResultOp count T)) :
    let ran := run (perform values errors) ops (initial memberOf .value contents)
    let quiet := EveryStep (specPerform values errors) (AssignsQuietly values errors) ops contents
    ((∀ answer ∈ ran.1, ¬ Misused answer) ∧ Ends memberOf ran.2 ↔ quiet) ∧
      (quiet → ran.1 = (run (specPerform values errors) ops contents).1 ∧
        (destroyAll memberOf (List.finRange count) ran.2).2.cells.constructed =
          (destroyAll memberOf (List.finRange count) ran.2).2.cells.destroyed) :=
  run_defined_iff .value (fun op _ quiet => performs op quiet) (specPerform_clean values errors)
    (fun op => keeps_perform values errors Cells.kept_balanced op trivial fun _ _ => trivial)
    (fun op _ _ represents loud => breaks op loud represents) broken_perform ops contents

end Runs

end Result

end Cpptrace.Utils
