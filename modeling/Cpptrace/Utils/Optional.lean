import Cpptrace.Library.Unions

/-! `optional`: a value that may be there, in storage of its own.

The value lives in a union, and a flag says whether it does. A program has some
optionals, and an operation makes one more for itself where the code has a local
one or a temporary.
-/

set_option autoImplicit false

namespace Cpptrace.Utils

open Cpptrace.Library Tagged

abbrev OptionalName (count : Nat) := Option (Fin count)

/-- The storage of each, with `holds_value` beside it. -/
abbrev Optionals (count : Nat) (V : Type) := Tagged (OptionalName count) V Bool

inductive OptionalOp (count : Nat) (V : Type) where
  | copyAssign (name other : Fin count)
  | moveAssign (name other : Fin count)
  | assignValue (name : Fin count) (value : V)
  | assignNull (name : Fin count)
  | swap (name other : Fin count)
  | unwrap (name : Fin count)
  | valueOr (name : Fin count) (default : V)
  | copied (other : Fin count)
  | moved (other : Fin count)

namespace Optional

variable {count : Nat} {V : Type} (payload : Payload V)

abbrev Using (count : Nat) (V : Type) := Command Ending (Optionals count V)

abbrev onValue {α : Type} (command : Command Ending (Cells (OptionalName count) V) α) : Using count V α :=
  Tagged.onCells command

abbrev holds (name : OptionalName count) : Using count V Bool := Tagged.readTag name

abbrev setHoldsValue (name : OptionalName count) (holds : Bool) : Using count V Unit := Tagged.setTag name holds

def reset (name : OptionalName count) : Using count V Unit := do
  if ← holds name then onValue (Cells.destroy name)
  setHoldsValue name false

/-- `std::swap` of two values. -/
def swapValues (name other : OptionalName count) : Using count V Unit := do
  let mine ← onValue (Cells.use name)
  let theirs ← onValue (Cells.use other)
  if payload.moveThrows mine || payload.moveThrows theirs then throw .thrown
  else do
    onValue (Cells.assign name theirs)
    onValue (Cells.assign other mine)

def exchange (name other : OptionalName count) (mine theirs : Bool) : Using count V Unit :=
  if mine && theirs then swapValues payload name other
  else if mine then do
    onValue (Cells.constructMove payload other name)
    onValue (Cells.destroy name)
  else if theirs then do
    onValue (Cells.constructMove payload name other)
    onValue (Cells.destroy other)
  else return ()

def noexcept (command : Using count V Unit) : Using count V Unit :=
  tryCatch command fun ending => throw (if ending = .thrown then .terminated else ending)

def swap (name other : OptionalName count) : Using count V Unit := noexcept do
  let mine ← holds name
  let theirs ← holds other
  exchange payload name other mine theirs
  setHoldsValue name theirs
  setHoldsValue other mine

def constructCopy (name other : OptionalName count) : Using count V Unit := do
  let there ← holds other
  setHoldsValue name there
  if there then onValue (Cells.constructCopy payload name other) else return ()

def constructMove (name other : OptionalName count) : Using count V Unit := do
  let there ← holds other
  setHoldsValue name there
  if there then onValue (Cells.constructMove payload name other) else return ()

def constructValue (name : OptionalName count) (value : V) : Using count V Unit := do
  setHoldsValue name true
  if payload.copyThrows value then throw .thrown else onValue (Cells.construct name value)

def copyAssign (name other : Fin count) : Using count V Unit := do
  constructCopy payload none (some other)
  swap payload (some name) none
  reset none

def moveAssign (name other : Fin count) : Using count V Unit :=
  if name = other then return ()
  else do
    reset (some name)
    if ← holds (some other) then do
      onValue (Cells.constructMove payload (some name) (some other))
      setHoldsValue (some name) true
    else return ()

def assignValue (name : Fin count) (value : V) : Using count V Unit := do
  constructValue payload none value
  swap payload (some name) none
  reset none

/-- `unwrap`, whose `ASSERT` throws. -/
def unwrap (name : OptionalName count) : Using count V V := do
  if ← holds name then onValue (Cells.use name) else throw .thrown

def valueElse (name : OptionalName count) (default : V) : Using count V V := do
  if ← holds name then onValue (Cells.use name) else return default

def valueOr (name : OptionalName count) (default : V) : Using count V V := do
  let chosen ← valueElse name default
  if payload.copyThrows chosen then throw .thrown else return chosen

def value (name : OptionalName count) : Using count V (Option V) := do
  if ← holds name then return some (← onValue (Cells.use name)) else return none

def taken : Using count V (Option V) := do
  let content ← value none
  reset none
  return content

/-- An operation of a program, with the value it gives. -/
def perform : OptionalOp count V → Using count V (Option V)
  | .copyAssign name other => do copyAssign payload name other; return none
  | .moveAssign name other => do moveAssign payload name other; return none
  | .assignValue name value => do assignValue payload name value; return none
  | .assignNull name => do reset (some name); return none
  | .swap name other => do swap payload (some name) (some other); return none
  | .unwrap name => do return some (← unwrap (some name))
  | .valueOr name default => do return some (← valueOr payload (some name) default)
  | .copied other => do constructCopy payload none (some other); taken
  | .moved other => do constructMove payload none (some other); taken

def survives {State Answer : Type} : Except Ending Answer × State → Except Ending Answer × Option State
  | (.error .terminated, _) => (.error .terminated, none)
  | (outcome, state) => (outcome, some state)

def step (op : OptionalOp count V) : Option (Optionals count V) → Except Ending (Option V) × Option (Optionals count V)
  | none => (.error .terminated, none)
  | some optionals => survives (perform payload op optionals)

def initial (count : Nat) (V : Type) : Optionals count V := ⟨.raw, fun _ => false⟩

def destroyAll (names : List (Fin count)) : Using count V Unit := names.forM fun name => reset (some name)

section Specification

def movable (value : Option V) : Bool := !value.any payload.moveThrows

def swapIn (name : Fin count) (content : Option V) (values : Fin count → Option V) :
    Except Ending (Option V) × Option (Fin count → Option V) :=
  if movable payload content && movable payload (values name)
    then (.ok none, some (Function.update values name content))
  else (.error .terminated, none)

def movedOut (values : Fin count → Option V) (other : Fin count) : Fin count → Option V :=
  Function.update values other ((values other).map payload.movedFrom)

def specPerform (op : OptionalOp count V) (values : Fin count → Option V) :
    Except Ending (Option V) × Option (Fin count → Option V) :=
  match op with
  | .copyAssign name other =>
      if (values other).any payload.copyThrows then (.error .thrown, some values)
      else swapIn payload name (values other) values
  | .moveAssign name other =>
      if name = other then (.ok none, some values)
      else if (values other).any payload.moveThrows then (.error .thrown, some (Function.update values name none))
      else (.ok none, some (Function.update (movedOut payload values other) name (values other)))
  | .assignValue name value =>
      if payload.copyThrows value then (.error .thrown, some values) else swapIn payload name (some value) values
  | .assignNull name => (.ok none, some (Function.update values name none))
  | .swap name other =>
      if movable payload (values name) && movable payload (values other) then
        (.ok none, some (Function.update (Function.update values name (values other)) other (values name)))
      else (.error .terminated, none)
  | .unwrap name =>
      match values name with
      | none => (.error .thrown, some values)
      | some value => (.ok (some value), some values)
  | .valueOr name default =>
      if payload.copyThrows ((values name).getD default) then (.error .thrown, some values)
      else (.ok (some ((values name).getD default)), some values)
  | .copied other =>
      if (values other).any payload.copyThrows then (.error .thrown, some values) else (.ok (values other), some values)
  | .moved other =>
      if (values other).any payload.moveThrows then (.error .thrown, some values)
      else (.ok (values other), some (movedOut payload values other))

def specStep (op : OptionalOp count V) :
    Option (Fin count → Option V) → Except Ending (Option V) × Option (Fin count → Option V)
  | none => (.error .terminated, none)
  | some values => specPerform payload op values

end Specification

section Refinement

variable {payload}

variable {object : OptionalName count → Option V} {flag : OptionalName count → Bool} {value : V}
  {name other : OptionalName count}

theorem returns_reset (follows : flag name = (object name).isSome) :
    Returns (At object flag) (reset name) ()
      (At (Function.update object name none) (Function.update flag name false)) := by
  refine Returns.bind returns_readTag ?_
  rw [follows]
  cases lives : object name with
  | none =>
    have unchanged : Function.update object name none = object := by rw [← lives, Function.update_eq_self]
    rw [unchanged]
    exact returns_setTag false
  | some value => exact Returns.bind (returns_onCells (Cells.returns_destroy lives)) (returns_setTag false)

def exchanged (object : OptionalName count → Option V) (name other : OptionalName count) :
    OptionalName count → Option V :=
  Function.update (Function.update object name (object other)) other (object name)

theorem returns_swapValues {mine theirs : V} (here : object name = some mine) (there : object other = some theirs)
    (quiet : payload.moveThrows mine = false) (quiet' : payload.moveThrows theirs = false) :
    Returns (At object flag) (swapValues payload name other) () (At (exchanged object name other) flag) := by
  refine Returns.bind (returns_onCells (Cells.returns_use here))
    (Returns.bind (returns_onCells (Cells.returns_use there)) ?_)
  rw [quiet, quiet', exchanged, here, there]
  have lives : ∃ value, Function.update object name (some theirs) other = some value := by
    by_cases same : other = name
    · exact ⟨theirs, by rw [same, Function.update_self]⟩
    · exact ⟨theirs, by rw [Function.update_of_ne same, there]⟩
  obtain ⟨value, lives⟩ := lives
  exact Returns.bind (returns_onCells (Cells.returns_assign here theirs))
    (returns_onCells (Cells.returns_assign lives mine))

theorem returns_exchange (movesMine : movable payload (object name) = true)
    (movesTheirs : movable payload (object other) = true) :
    Returns (At object flag) (exchange payload name other (object name).isSome (object other).isSome) ()
      (At (exchanged object name other) flag) := by
  rw [exchange, exchanged]
  cases here : object name with
  | none =>
    cases there : object other with
    | none =>
      have unchanged : Function.update (Function.update object name none) other none = object := by
        rw [← here, Function.update_eq_self, here, ← there, Function.update_eq_self]
      rw [unchanged]
      exact .pure _ _
    | some theirs =>
      refine Returns.bind
        (returns_onCells (Cells.returns_constructMove here there (by simpa [movable, there] using movesTheirs))) ?_
      have gone : Function.update (Function.update (Function.update object name (some theirs)) other
          (some (payload.movedFrom theirs))) other none =
          Function.update (Function.update object name (some theirs)) other none := Function.update_idem ..
      rw [← gone]
      exact returns_onCells (Cells.returns_destroy (Function.update_self ..))
  | some mine =>
    cases there : object other with
    | none =>
      have apart : name ≠ other := by
        rintro rfl
        simp [here] at there
      refine Returns.bind
        (returns_onCells (Cells.returns_constructMove there here (by simpa [movable, here] using movesMine))) ?_
      have gone : Function.update (Function.update (Function.update object other (some mine)) name
          (some (payload.movedFrom mine))) name none =
          Function.update (Function.update object name none) other (some mine) := by
        rw [Function.update_idem, Function.update_comm apart]
      rw [← gone]
      exact returns_onCells (Cells.returns_destroy (Function.update_self ..))
    | some theirs =>
      have placed : exchanged object name other =
          Function.update (Function.update object name (some theirs)) other (some mine) := by
        rw [exchanged, here, there]
      rw [← placed]
      exact returns_swapValues here there (by simpa [movable, here] using movesMine)
        (by simpa [movable, there] using movesTheirs)

theorem fails_exchange (stuck : (movable payload (object name) && movable payload (object other)) = false) :
    Fails (At object flag) (exchange payload name other (object name).isSome (object other).isSome) .thrown
      (At object flag) := by
  rw [exchange]
  cases here : object name with
  | none =>
    cases there : object other with
    | none => simp [movable, here, there] at stuck
    | some theirs =>
      exact (fails_onCells (Cells.fails_constructMove there (by simpa [movable, here, there] using stuck))).bind _
  | some mine =>
    cases there : object other with
    | none =>
      exact (fails_onCells (Cells.fails_constructMove here (by simpa [movable, here, there] using stuck))).bind _
    | some theirs =>
      have throws : (payload.moveThrows mine || payload.moveThrows theirs) = true := by
        simp only [movable, here, there, Option.any_some] at stuck
        revert stuck
        cases payload.moveThrows mine <;> cases payload.moveThrows theirs <;> decide
      refine Fails.second (returns_onCells (Cells.returns_use here))
        (Fails.second (returns_onCells (Cells.returns_use there)) ?_)
      rw [throws]
      exact .throw _ _

theorem returns_noexcept {before after : Optionals count V → Prop} {command : Using count V Unit}
    (valid : Returns before command () after) : Returns before (noexcept command) () after := by
  intro optionals at_
  obtain ⟨returned, next⟩ := valid optionals at_
  rw [noexcept, Command.tryCatch_apply, returned]
  exact ⟨rfl, next⟩

theorem fails_noexcept {before after : Optionals count V → Prop} {command : Using count V Unit}
    (thrown : Fails before command .thrown after) : Fails before (noexcept command) .terminated after := by
  intro optionals at_
  obtain ⟨failed, next⟩ := thrown optionals at_
  rw [noexcept, Command.tryCatch_apply, failed]
  exact ⟨rfl, next⟩

theorem returns_swap (follows : flag name = (object name).isSome) (follows' : flag other = (object other).isSome)
    (moves : (movable payload (object name) && movable payload (object other)) = true) :
    Returns (At object flag) (swap payload name other) ()
      (At (exchanged object name other)
        (Function.update (Function.update flag name (flag other)) other (flag name))) := by
  obtain ⟨movesMine, movesTheirs⟩ := Bool.and_eq_true_iff.mp moves
  refine returns_noexcept (Returns.bind returns_readTag (Returns.bind returns_readTag ?_))
  rw [follows, follows']
  exact Returns.bind (returns_exchange movesMine movesTheirs)
    (Returns.bind (returns_setTag _) (returns_setTag _))

theorem fails_swap (follows : flag name = (object name).isSome) (follows' : flag other = (object other).isSome)
    (stuck : (movable payload (object name) && movable payload (object other)) = false) :
    Fails (At object flag) (swap payload name other) .terminated (At object flag) := by
  refine fails_noexcept (Fails.second returns_readTag (Fails.second returns_readTag ?_))
  rw [follows, follows']
  exact (fails_exchange stuck).bind _

variable {values : Fin count → Option V}

abbrev flagged (values : Fin count → Option V) (local_ : Bool) : OptionalName count → Bool :=
  withLocal (Option.isSome ∘ values) local_

/-- The optionals have these values, and no local one is left. -/
abbrev Represents (values : Fin count → Option V) (optionals : Optionals count V) : Prop :=
  Settled values (Option.isSome ∘ values) optionals

theorem update_flagged (name : Fin count) (local_ : Bool) (content : Option V) :
    Function.update (flagged values local_) (some name) content.isSome =
      flagged (Function.update values name content) local_ :=
  update_withLocal_comp Option.isSome values name local_ content

variable {stale : Bool} {other : Fin count}

theorem flagged_some (local_ : Bool) (name : Fin count) :
    flagged values local_ (some name) = (values name).isSome := rfl

theorem withLocal_some (local_ : Option V) (name : Fin count) : withLocal values local_ (some name) = values name := rfl

theorem returns_constructCopy (quiet : (values other).any payload.copyThrows = false) :
    Returns (At (withLocal values none) (flagged values stale)) (constructCopy payload none (some other)) ()
      (At (withLocal values (values other)) (flagged values (values other).isSome)) := by
  refine Returns.bind returns_readTag (Returns.bind (returns_setTag _) ?_)
  rw [update_withLocal_none, flagged_some, ← update_withLocal_none none (values other)]
  cases there : values other with
  | none =>
    rw [update_withLocal_none]
    exact .pure _ _
  | some value =>
    rw [there] at quiet
    exact returns_onCells (Cells.returns_constructCopy rfl ((withLocal_some none other).trans there) quiet)

theorem fails_constructCopy (throws : (values other).any payload.copyThrows = true) :
    Fails (At (withLocal values none) (flagged values stale)) (constructCopy payload none (some other)) .thrown
      (Represents values) := by
  refine Fails.second returns_readTag (Fails.second (returns_setTag _) ?_)
  rw [update_withLocal_none, flagged_some]
  cases there : values other with
  | none => simp [there] at throws
  | some value =>
    rw [there] at throws
    intro optionals at_
    obtain ⟨thrown, next⟩ :=
      fails_onCells (Cells.fails_constructCopy ((withLocal_some none other).trans there) throws) optionals at_
    exact ⟨thrown, _, next⟩

theorem flagged_movedOut (local_ : Bool) : flagged (movedOut payload values other) local_ = flagged values local_ := by
  rw [movedOut, ← update_flagged, Option.isSome_map, ← flagged_some local_ other, Function.update_eq_self]

theorem returns_constructMove_local (quiet : (values other).any payload.moveThrows = false) :
    Returns (At (withLocal values none) (flagged values stale)) (constructMove payload none (some other)) ()
      (At (withLocal (movedOut payload values other) (values other))
        (flagged (movedOut payload values other) (values other).isSome)) := by
  refine Returns.bind returns_readTag (Returns.bind (returns_setTag _) ?_)
  rw [update_withLocal_none, flagged_some, flagged_movedOut, movedOut, ← update_withLocal,
    ← update_withLocal_none none (values other)]
  cases there : values other with
  | none =>
    have unchanged : Function.update (withLocal values none) (some other) none = withLocal values none :=
      Function.update_eq_self_iff.mpr ((withLocal_some none other).trans there).symm
    rw [update_withLocal_none, Option.map_none, unchanged]
    exact .pure _ _
  | some value =>
    rw [there] at quiet
    exact returns_onCells (Cells.returns_constructMove rfl ((withLocal_some none other).trans there) quiet)

theorem fails_constructMove_local (throws : (values other).any payload.moveThrows = true) :
    Fails (At (withLocal values none) (flagged values stale)) (constructMove payload none (some other)) .thrown
      (Represents values) := by
  refine Fails.second returns_readTag (Fails.second (returns_setTag _) ?_)
  rw [update_withLocal_none, flagged_some]
  cases there : values other with
  | none => simp [there] at throws
  | some value =>
    rw [there] at throws
    intro optionals at_
    obtain ⟨thrown, next⟩ :=
      fails_onCells (Cells.fails_constructMove ((withLocal_some none other).trans there) throws) optionals at_
    exact ⟨thrown, _, next⟩

variable {name : Fin count} {content : Option V}

theorem exchanged_named :
    exchanged (withLocal values content) (some name) none =
      withLocal (Function.update values name content) (values name) := by
  have given : withLocal values content none = content := rfl
  rw [exchanged, given, withLocal_some, update_withLocal, update_withLocal_none]

theorem exchanged_flagged :
    Function.update
      (Function.update (flagged values content.isSome) (some name) (flagged values content.isSome none)) none
      (flagged values content.isSome (some name)) =
        flagged (Function.update values name content) (values name).isSome := by
  have given : flagged values content.isSome none = content.isSome := rfl
  rw [given, flagged_some, update_flagged, update_withLocal_none]

/-- What a local optional holds is swapped in, and what comes out is destroyed. -/
theorem returns_swapIn (moves : (movable payload content && movable payload (values name)) = true) :
    Returns (At (withLocal values content) (flagged values content.isSome))
      (do swap payload (some name) none; reset none) ()
      (Represents (Function.update values name content)) := by
  have moves' : (movable payload (withLocal values content (some name)) && movable payload
      (withLocal values content none)) = true :=
    (Bool.and_comm _ _).trans moves
  refine Returns.bind (returns_swap rfl rfl moves') ?_
  rw [exchanged_named, exchanged_flagged]
  have cleared : Returns (At (withLocal (Function.update values name content) (values name))
      (flagged (Function.update values name content) (values name).isSome)) (reset none) () _ := returns_reset rfl
  rw [update_withLocal_none, update_withLocal_none] at cleared
  exact fun optionals at_ => ⟨(cleared optionals at_).1, _, (cleared optionals at_).2⟩

theorem fails_swapIn (stuck : (movable payload content && movable payload (values name)) = false) :
    Fails (At (withLocal values content) (flagged values content.isSome)) (do swap payload (some name) none; reset none)
      .terminated (fun _ => True) := by
  have stuck' : (movable payload (withLocal values content (some name)) && movable payload
      (withLocal values content none)) = false :=
    (Bool.and_comm _ _).trans stuck
  refine Fails.bind (fun optionals at_ => ?_) _
  exact ⟨(fails_swap rfl rfl stuck' optionals at_).1, trivial⟩

def Leaves (ended : Prop) : Option (Fin count → Option V) → Optionals count V → Prop
  | some next, optionals => ¬ ended ∧ Represents next optionals
  | none, _ => ended

abbrev Performs {α : Type} (values : Fin count → Option V) (command : Using count V α) (outcome : Except Ending α)
    (next : Option (Fin count → Option V)) : Prop :=
  EndsWith (Represents values) command outcome (Leaves (outcome = .error .terminated) next)

theorem Performs.returns {α : Type} {command : Using count V α} {value : α} {next : Fin count → Option V}
    (returned : ∀ stale, Returns (At (withLocal values none) (flagged values stale)) command value (Represents next)) :
    Performs values command (.ok value) (some next) := by
  rintro optionals ⟨stale, at_⟩
  obtain ⟨outcome, last⟩ := returned stale optionals at_
  exact ⟨outcome, nofun, last⟩

theorem Performs.throws {α : Type} {command : Using count V α} {next : Fin count → Option V}
    (failed : ∀ stale, Fails (At (withLocal values none) (flagged values stale)) command .thrown (Represents next)) :
    Performs values command (.error .thrown) (some next) := by
  rintro optionals ⟨stale, at_⟩
  obtain ⟨outcome, last⟩ := failed stale optionals at_
  exact ⟨outcome, nofun, last⟩

theorem Performs.terminates {α : Type} {command : Using count V α}
    (failed : ∀ stale, Fails (At (withLocal values none) (flagged values stale)) command .terminated fun _ => True) :
    Performs values command (.error .terminated) none := by
  rintro optionals ⟨stale, at_⟩
  exact ⟨(failed stale optionals at_).1, rfl⟩

theorem returns_represents {α : Type} (stale : Bool) (answer : α) :
    Returns (At (withLocal values none) (flagged values stale)) (pure answer : Using count V α) answer
      (Represents values) :=
  fun _ at_ => ⟨rfl, stale, at_⟩

theorem performs_copyAssign (name other : Fin count) :
    Performs values (perform payload (.copyAssign name other)) (specPerform payload (.copyAssign name other) values).1
      (specPerform payload (.copyAssign name other) values).2 := by
  rw [specPerform, swapIn]
  cases throws : (values other).any payload.copyThrows with
  | true => exact .throws fun stale => ((fails_constructCopy throws).bind _).bind _
  | false =>
    cases moves : movable payload (values other) && movable payload (values name) with
    | true =>
      exact .returns fun stale =>
        Returns.bind (Returns.bind (returns_constructCopy throws) (returns_swapIn moves)) (.pure _ _)
    | false =>
      exact .terminates fun stale => (Fails.second (returns_constructCopy throws) (fails_swapIn moves)).bind _

theorem performs_assignValue (name : Fin count) (value : V) :
    Performs values (perform payload (.assignValue name value)) (specPerform payload (.assignValue name value) values).1
      (specPerform payload (.assignValue name value) values).2 := by
  have flagSet : ∀ stale, Returns (At (withLocal values none) (flagged values stale)) (setHoldsValue none true) ()
      (At (withLocal values none) (flagged values true)) := by
    intro stale
    have set : Returns (At (withLocal values none) (flagged values stale)) (setHoldsValue none true) () _ :=
      returns_setTag true
    rw [update_withLocal_none] at set
    exact set
  rw [specPerform, swapIn]
  cases throws : payload.copyThrows value with
  | true =>
    refine .throws fun stale => Fails.bind (Fails.bind (Fails.second (flagSet stale) ?_) _) _
    rw [throws]
    exact fun optionals at_ => ⟨rfl, _, at_⟩
  | false =>
    have constructed : ∀ stale,
        Returns (At (withLocal values none) (flagged values stale)) (constructValue payload none value) ()
        (At (withLocal values (some value)) (flagged values (some value).isSome)) := by
      refine fun stale => Returns.bind (flagSet stale) ?_
      rw [throws, ← update_withLocal_none none (some value)]
      exact returns_onCells (Cells.returns_construct rfl value)
    cases moves : movable payload (some value) && movable payload (values name) with
    | true =>
      exact .returns fun stale => Returns.bind (Returns.bind (constructed stale) (returns_swapIn moves)) (.pure _ _)
    | false => exact .terminates fun stale => (Fails.second (constructed stale) (fails_swapIn moves)).bind _

theorem returns_reset_some (name : Fin count) :
    Returns (At (withLocal values none) (flagged values stale)) (reset (some name)) ()
      (At (withLocal (Function.update values name none) none) (flagged (Function.update values name none) stale)) := by
  rw [← update_withLocal, ← update_flagged]
  exact returns_reset rfl

theorem performs_assignNull (name : Fin count) :
    Performs values (perform payload (.assignNull name)) (specPerform payload (.assignNull name) values).1
      (specPerform payload (.assignNull name) values).2 :=
  .returns fun stale => Returns.bind (returns_reset_some name) (returns_represents stale none)

theorem performs_swap (name other : Fin count) :
    Performs values (perform payload (.swap name other)) (specPerform payload (.swap name other) values).1
      (specPerform payload (.swap name other) values).2 := by
  rw [specPerform]
  cases moves : movable payload (values name) && movable payload (values other) with
  | true =>
    refine .returns fun _ => ?_
    have moves' : (movable payload (withLocal values none (some name)) && movable payload
        (withLocal values none (some other))) =
        true := moves
    refine Returns.bind (returns_swap rfl rfl moves') ?_
    rw [exchanged, flagged_some, flagged_some, update_flagged, withLocal_some, withLocal_some, update_withLocal,
      update_flagged,
      update_withLocal]
    exact returns_represents _ none
  | false =>
    have stuck : (movable payload (withLocal values none (some name)) && movable payload
        (withLocal values none (some other))) =
        false := moves
    exact .terminates fun _ => Fails.bind (fun optionals at_ => ⟨(fails_swap rfl rfl stuck optionals at_).1, trivial⟩) _

theorem performs_unwrap (name : Fin count) :
    Performs values (perform payload (.unwrap name)) (specPerform payload (.unwrap name) values).1
      (specPerform payload (.unwrap name) values).2 := by
  rw [specPerform]
  cases there : values name with
  | none =>
    refine .throws fun stale => Fails.bind (Fails.second returns_readTag ?_) _
    rw [flagged_some, there]
    exact fun optionals at_ => ⟨rfl, _, at_⟩
  | some found =>
    refine .returns fun stale => Returns.bind (Returns.bind returns_readTag ?_) (returns_represents stale _)
    rw [flagged_some, there]
    exact returns_onCells (Cells.returns_use there)

theorem performs_valueOr (name : Fin count) (default : V) :
    Performs values (perform payload (.valueOr name default)) (specPerform payload (.valueOr name default) values).1
      (specPerform payload (.valueOr name default) values).2 := by
  have chosen : ∀ stale, Returns (At (withLocal values none) (flagged values stale)) (valueElse (some name) default)
      ((values name).getD default) (At (withLocal values none) (flagged values stale)) := by
    refine fun stale => Returns.bind returns_readTag ?_
    rw [flagged_some]
    cases there : values name with
    | none => exact .pure _ _
    | some found => exact returns_onCells (Cells.returns_use there)
  rw [specPerform]
  cases throws : payload.copyThrows ((values name).getD default) with
  | true =>
    refine .throws fun stale => Fails.bind (Fails.second (chosen stale) ?_) _
    rw [throws]
    exact fun optionals at_ => ⟨rfl, _, at_⟩
  | false =>
    refine .returns fun stale => Returns.bind (Returns.bind (chosen stale) ?_) (returns_represents stale _)
    rw [throws]
    exact .pure _ _

theorem returns_taken (content : Option V) :
    Returns (At (withLocal values content) (flagged values content.isSome)) taken content (Represents values) := by
  have read : Returns (At (withLocal values content) (flagged values content.isSome)) (value none) content
      (At (withLocal values content) (flagged values content.isSome)) := by
    have given : flagged values content.isSome none = content.isSome := rfl
    refine Returns.bind returns_readTag ?_
    rw [given]
    cases content with
    | none => exact .pure _ _
    | some found => exact Returns.bind (returns_onCells (Cells.returns_use rfl)) (.pure _ _)
  have cleared : Returns (At (withLocal values content) (flagged values content.isSome)) (reset none) () _ :=
      returns_reset rfl
  rw [update_withLocal_none, update_withLocal_none] at cleared
  exact Returns.bind read (Returns.bind cleared (returns_represents _ content))

theorem performs_copied (other : Fin count) :
    Performs values (perform payload (.copied other)) (specPerform payload (.copied other) values).1
      (specPerform payload (.copied other) values).2 := by
  rw [specPerform]
  cases throws : (values other).any payload.copyThrows with
  | true => exact .throws fun stale => (fails_constructCopy throws).bind _
  | false => exact .returns fun stale => Returns.bind (returns_constructCopy throws) (returns_taken _)

theorem performs_moved (other : Fin count) :
    Performs values (perform payload (.moved other)) (specPerform payload (.moved other) values).1
      (specPerform payload (.moved other) values).2 := by
  rw [specPerform]
  cases throws : (values other).any payload.moveThrows with
  | true => exact .throws fun stale => (fails_constructMove_local throws).bind _
  | false => exact .returns fun stale => Returns.bind (returns_constructMove_local throws) (returns_taken _)

theorem returns_moveAssign {name other : Fin count} (apart : name ≠ other)
    (quiet : (values other).any payload.moveThrows = false) (stale : Bool) :
    Returns (At (withLocal values none) (flagged values stale)) (moveAssign payload name other) ()
      (Represents (Function.update (movedOut payload values other) name (values other))) := by
  have kept : Function.update values name none other = values other := Function.update_of_ne apart.symm ..
  rw [moveAssign, if_neg apart]
  refine Returns.bind (returns_reset_some name) (Returns.bind returns_readTag ?_)
  rw [flagged_some, kept, movedOut, Function.update_comm apart.symm]
  cases there : values other with
  | none =>
    have unchanged : Function.update (Function.update values name none) other none = Function.update values name none :=
      Function.update_eq_self_iff.mpr (kept.trans there).symm
    rw [Option.map_none, unchanged]
    exact returns_represents stale ()
  | some found =>
    rw [there] at quiet
    have raw : withLocal (Function.update values name none) none (some name) = none := Function.update_self ..
    have lives : withLocal (Function.update values name none) none (some other) = some found := kept.trans there
    have constructed : Returns
        (At (withLocal (Function.update values name none) none) (flagged (Function.update values name none) stale))
        (onValue (Cells.constructMove payload (some name) (some other))) () _ :=
      returns_onCells (Cells.returns_constructMove raw lives quiet)
    rw [update_withLocal, update_withLocal, Function.update_idem] at constructed
    refine Returns.bind constructed ?_
    -- the one that was moved from still has a value, so its flag stays
    have unchanged : flagged (Function.update (Function.update values name (some found)) other
        (some (payload.movedFrom found))) stale = flagged (Function.update values name (some found)) stale := by
      rw [← update_flagged, Option.isSome_some]
      refine Function.update_eq_self_iff.mpr ?_
      rw [flagged_some, Function.update_of_ne apart.symm, there, Option.isSome_some]
    have set : Function.update (flagged (Function.update values name none) stale) (some name) true =
        flagged (Function.update values name (some found)) stale := by
      have placed : Function.update (flagged (Function.update values name none) stale) (some name)
          (some found).isSome = _ :=
        update_flagged name stale (some found)
      rw [Function.update_idem] at placed
      exact placed
    rw [Option.map_some]
    refine Returns.weaken (returns_setTag true) (fun _ at_ => at_) fun optionals at_ => ⟨stale, ?_⟩
    rw [set, ← unchanged] at at_
    exact at_

theorem fails_moveAssign {name other : Fin count} (apart : name ≠ other)
    (throws : (values other).any payload.moveThrows = true) (stale : Bool) :
    Fails (At (withLocal values none) (flagged values stale)) (moveAssign payload name other) .thrown
      (Represents (Function.update values name none)) := by
  have kept : Function.update values name none other = values other := Function.update_of_ne apart.symm ..
  rw [moveAssign, if_neg apart]
  refine Fails.second (returns_reset_some name) (Fails.second returns_readTag ?_)
  rw [flagged_some, kept]
  cases there : values other with
  | none => simp [there] at throws
  | some found =>
    rw [there] at throws
    have lives : withLocal (Function.update values name none) none (some other) = some found := kept.trans there
    refine Fails.bind (fun optionals at_ => ?_) _
    obtain ⟨thrown, next⟩ := fails_onCells (Cells.fails_constructMove lives throws) optionals at_
    exact ⟨thrown, stale, next⟩

theorem performs_moveAssign (name other : Fin count) :
    Performs values (perform payload (.moveAssign name other)) (specPerform payload (.moveAssign name other) values).1
      (specPerform payload (.moveAssign name other) values).2 := by
  rw [specPerform]
  by_cases same : name = other
  · rw [if_pos same, perform, moveAssign, if_pos same]
    exact .returns fun stale => returns_represents stale none
  · rw [if_neg same]
    cases throws : (values other).any payload.moveThrows with
    | false => exact .returns fun stale => Returns.bind (returns_moveAssign same throws stale) (.pure _ _)
    | true => exact .throws fun stale => (fails_moveAssign same throws stale).bind _

variable (payload) in
theorem performs (op : OptionalOp count V) :
    Performs values (perform payload op) (specPerform payload op values).1 (specPerform payload op values).2 := by
  cases op with
  | copyAssign name other => exact performs_copyAssign name other
  | moveAssign name other => exact performs_moveAssign name other
  | assignValue name value => exact performs_assignValue name value
  | assignNull name => exact performs_assignNull name
  | swap name other => exact performs_swap name other
  | unwrap name => exact performs_unwrap name
  | valueOr name default => exact performs_valueOr name default
  | copied other => exact performs_copied other
  | moved other => exact performs_moved other

end Refinement

section Counting

variable {payload}

abbrev KeepsCount {α : Type} (command : Using count V α) : Prop := Keeps Cells.Balanced command

variable {name other : OptionalName count}

theorem keepsCount_reset : KeepsCount (reset name : Using count V Unit) := by
  refine keeps_readTag.bind fun there _ => ?_
  cases there with
  | false => exact keeps_setTag false
  | true => exact (keeps_onCells (Cells.keepsBalance_destroy name)).bind fun _ _ => keeps_setTag false

theorem keepsCount_constructMoveValue : KeepsCount (onValue (Cells.constructMove payload name other)) :=
  keeps_onCells (Cells.keepsBalance_constructMove payload name other)

theorem keepsCount_swap : KeepsCount (swap payload name other) := by
  have swapped : KeepsCount (swapValues payload name other) :=
    (keeps_onCells (Cells.keepsBalance_use name)).bind fun mine _ =>
      (keeps_onCells (Cells.keepsBalance_use other)).bind fun theirs _ =>
        (keeps_throw .thrown).ite ((keeps_onCells (Cells.keepsBalance_assign name theirs)).bind fun _ _ =>
          keeps_onCells (Cells.keepsBalance_assign other mine))
  have exchanges : ∀ mine theirs, KeepsCount (exchange payload name other mine theirs) := by
    refine fun mine theirs => swapped.ite (Stays.ite ?_ (Stays.ite ?_ (keeps_return ())))
    · exact keepsCount_constructMoveValue.bind fun _ _ => keeps_onCells (Cells.keepsBalance_destroy name)
    · exact keepsCount_constructMoveValue.bind fun _ _ => keeps_onCells (Cells.keepsBalance_destroy other)
  exact Stays.tryCatch (keeps_readTag.bind fun mine _ => keeps_readTag.bind fun theirs _ =>
    (exchanges mine theirs).bind fun _ _ => (keeps_setTag _).bind fun _ _ => keeps_setTag _)
    fun _ => keeps_throw _

theorem keepsCount_constructCopy : KeepsCount (constructCopy payload name other) :=
  keeps_readTag.bind fun _ _ => (keeps_setTag _).bind fun _ _ =>
    (keeps_onCells (Cells.keepsBalance_constructCopy payload name other)).ite (keeps_return ())

theorem keepsCount_constructMove : KeepsCount (constructMove payload name other) :=
  keeps_readTag.bind fun _ _ => (keeps_setTag _).bind fun _ _ =>
    keepsCount_constructMoveValue.ite (keeps_return ())

theorem keepsCount_constructValue (value : V) : KeepsCount (constructValue payload name value) :=
  (keeps_setTag _).bind fun _ _ =>
    (keeps_throw _).ite (keeps_onCells (Cells.keepsBalance_construct name value))

theorem keepsCount_taken : KeepsCount (taken : Using count V (Option V)) := by
  have read : KeepsCount (value none : Using count V (Option V)) :=
    keeps_readTag.bind fun _ _ =>
      ((keeps_onCells (Cells.keepsBalance_use none)).bind fun _ _ => keeps_return _).ite (keeps_return _)
  exact read.bind fun content _ => keepsCount_reset.bind fun _ _ => keeps_return content

theorem keepsCount_moveAssign (name other : Fin count) : KeepsCount (moveAssign payload name other) :=
  (keeps_return ()).ite <| keepsCount_reset.bind fun _ _ => keeps_readTag.bind fun _ _ =>
    (keepsCount_constructMoveValue.bind fun _ _ => keeps_setTag true).ite (keeps_return ())

variable (payload) in
theorem keepsCount_perform (op : OptionalOp count V) : KeepsCount (perform payload op) := by
  have answered : ∀ {command : Using count V Unit}, KeepsCount command →
      KeepsCount (do command; return (none : Option V)) :=
    fun keeps => keeps.bind fun _ _ => keeps_return none
  cases op with
  | copyAssign name other =>
    exact answered (keepsCount_constructCopy.bind fun _ _ => keepsCount_swap.bind fun _ _ => keepsCount_reset)
  | moveAssign name other => exact answered (keepsCount_moveAssign name other)
  | assignValue name value =>
    exact answered ((keepsCount_constructValue value).bind fun _ _ => keepsCount_swap.bind fun _ _ => keepsCount_reset)
  | assignNull name => exact answered keepsCount_reset
  | swap name other => exact answered keepsCount_swap
  | unwrap name =>
    exact (keeps_readTag.bind fun _ _ => (keeps_onCells (Cells.keepsBalance_use _)).ite (keeps_throw _)).bind
      fun _ _ => keeps_return _
  | valueOr name default =>
    have chosen : KeepsCount (valueElse (some name) default) :=
      keeps_readTag.bind fun _ _ => (keeps_onCells (Cells.keepsBalance_use _)).ite (keeps_return _)
    exact (chosen.bind fun _ _ => (keeps_throw _).ite (keeps_return _)).bind fun _ _ => keeps_return _
  | copied other => exact keepsCount_constructCopy.bind fun _ _ => keepsCount_taken
  | moved other => exact keepsCount_constructMove.bind fun _ _ => keepsCount_taken

end Counting

section Runs

theorem survives_terminated {State Answer : Type} {ran : Except Ending Answer × State}
    (ended : ran.1 = .error .terminated) : survives ran = (.error .terminated, none) := by
  obtain ⟨outcome, state⟩ := ran
  dsimp only at ended
  subst ended
  rfl

theorem survives_of_ne {State Answer : Type} {ran : Except Ending Answer × State}
    (goesOn : ran.1 ≠ .error .terminated) : survives ran = (ran.1, some ran.2) := by
  obtain ⟨outcome, state⟩ := ran
  unfold survives
  split
  next same =>
    cases same
    exact absurd rfl goesOn
  next same => rw [same]

def Abstracts : Option (Optionals count V) → Option (Fin count → Option V) → Prop
  | none, none => True
  | some optionals, some values => Represents values optionals ∧ optionals.Counted
  | _, _ => False

theorem step_simulates (op : OptionalOp count V) (state : Option (Optionals count V))
    (values : Option (Fin count → Option V)) (abstracts : Abstracts state values) :
    (step payload op state).1 = (specStep payload op values).1 ∧
      Abstracts (step payload op state).2 (specStep payload op values).2 := by
  match state, values, abstracts with
  | none, none, _ => exact ⟨rfl, trivial⟩
  | some optionals, some values, ⟨represents, counted⟩ =>
    obtain ⟨outcome, left⟩ := performs payload op optionals represents
    have keeps : Tagged.Counted (perform payload op optionals).2 := (keepsCount_perform payload op optionals counted).1
    rw [step, specStep]
    cases next : (specPerform payload op values).2 with
    | none =>
      rw [next] at left
      rw [survives_terminated (outcome.trans left), left]
      exact ⟨rfl, trivial⟩
    | some next' =>
      rw [next] at left
      rw [survives_of_ne (outcome ▸ left.1)]
      exact ⟨outcome, left.2, keeps⟩

theorem destroyAll_returns (names : List (Fin count)) (values : Fin count → Option V) :
    Returns (Represents values) (destroyAll names) ()
      (Represents fun name => if name ∈ names then none else values name) := by
  induction names generalizing values with
  | nil =>
    intro optionals represents
    simpa [destroyAll] using represents
  | cons name rest ih =>
    have first : Returns (Represents values) (reset (some name)) ()
        (Represents (Function.update values name none)) := by
      rintro optionals ⟨stale, at_⟩
      obtain ⟨returned, next⟩ := returns_reset_some name optionals at_
      exact ⟨returned, stale, next⟩
    refine (first.bind (ih _)).weaken (fun _ represents => represents) fun optionals represents => ?_
    convert represents using 2 with other
    by_cases same : other = name
    · simp [same]
    · simp [same]

theorem represents_initial : Represents (fun _ => none) (initial count V) := by
  refine ⟨false, ?_, ?_⟩
  · funext name
    cases name <;> rfl
  · funext name
    cases name <;> rfl

/-- In every run the optionals answer as values that are there or not, whatever throws; and unless the process
was ended, their destructors destroy what was made. -/
theorem optionals_balance (payload : Payload V) (ops : List (OptionalOp count V)) :
    (run (step payload) ops (some (initial count V))).1 = (run (specStep payload) ops (some fun _ => none)).1 ∧
      ∀ optionals, (run (step payload) ops (some (initial count V))).2 = some optionals →
        (destroyAll (List.finRange count) optionals).1 = .ok () ∧
          (destroyAll (List.finRange count) optionals).2.cells.constructed =
            (destroyAll (List.finRange count) optionals).2.cells.destroyed := by
  have start : Abstracts (some (initial count V)) (some fun _ => none) :=
    ⟨represents_initial, Cells.balanced_raw⟩
  obtain ⟨answers, last⟩ := run_refines (step_simulates payload) ops _ _ start
  refine ⟨answers, fun optionals survived => ?_⟩
  rw [survived] at last
  cases values : (run (specStep payload) ops (some fun _ => none)).2 with
  | none =>
    rw [values] at last
    exact last.elim
  | some values' =>
    rw [values] at last
    obtain ⟨returned, stale, empty, _⟩ := destroyAll_returns (List.finRange count) values' optionals last.1
    refine ⟨returned, ?_⟩
    have counted : Tagged.Counted (destroyAll (List.finRange count) optionals).2 :=
      (keeps_forM (fun _ => keepsCount_reset) (List.finRange count) optionals last.2).1
    refine Cells.Balanced.eq_of_raw counted fun name => ?_
    rw [empty]
    cases name <;> simp [withLocal]

end Runs

end Optional

end Cpptrace.Utils
