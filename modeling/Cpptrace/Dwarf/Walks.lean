import Cpptrace.Dwarf.Die
import Cpptrace.Library.Stopping

/-! Which stops a walk over DIEs gets to know of.

A callback asks to stop by its answer. `walk_die_list` does not pass on the answer for
the first DIE of a list, so that the walks built on it go on where they should not.
-/

set_option autoImplicit false

namespace Cpptrace.Dwarf

open Library

section Recursive

variable {State : Type} (fn : Die → State → Except Exception (Bool × State))

mutual

/-- The callback that `walk_die_list_recursive` hands to `walk_die_list`, which for the children is
written out here. -/
def visitDie : Die → State → Except Exception (Bool × State)
  | .node offset tag attributes [], state => fn (.node offset tag attributes []) state
  | .node offset tag attributes (child :: siblings), state =>
      visitDie child state >>= fun answer =>
        if answer.1 then
          visitSiblings siblings answer.2 >>= fun answer =>
            if answer.1 then fn (.node offset tag attributes (child :: siblings)) answer.2 else .ok (false, answer.2)
        else fn (.node offset tag attributes (child :: siblings)) answer.2

def visitSiblings : List Die → State → Except Exception (Bool × State)
  | [], state => .ok (true, state)
  | die :: rest, state =>
      visitDie die state >>= fun answer => if answer.1 then visitSiblings rest answer.2 else .ok (false, answer.2)

end

def walkDieListRecursive (first : Die) (siblings : List Die) (state : State) : Except Exception (Bool × State) :=
  walkDieList (visitDie fn) first siblings state

theorem walkSiblings_visitDie (dies : List Die) (state : State) :
    walkSiblings (visitDie fn) dies state = visitSiblings fn dies state := by
  induction dies generalizing state with
  | nil => rfl
  | cons die rest ih =>
    rw [walkSiblings, visitSiblings]
    refine bind_congr fun answer => ?_
    obtain ⟨goOn, next⟩ := answer
    simp only [ih]
    rfl

end Recursive

section Stops

mutual

/-- The DIEs of a tree, each behind its children. The mark is for those whose stop gets through: those
that are no first child, and are in no tree of a first child. -/
def postOrder : Die → List (Die × Bool)
  | .node offset tag attributes [] => [(.node offset tag attributes [], true)]
  | .node offset tag attributes (child :: siblings) =>
      ((postOrder child).map fun entry => (entry.1, false)) ++
        (postOrderSiblings siblings ++ [(.node offset tag attributes (child :: siblings), true)])

def postOrderSiblings : List Die → List (Die × Bool)
  | [] => []
  | die :: rest => postOrder die ++ postOrderSiblings rest

end

variable {State : Type} (fn : Die → State → Except Exception (Bool × State))

mutual

/-- The first child's stop leads to the call for its parent, each other one past it. -/
theorem visitDie_heeds : ∀ die, Heeds fn (visitDie (logged fn) die) (postOrder die)
  | .node offset tag attributes [] => by
      rw [postOrder]
      exact .call fn _
  | .node offset tag attributes (child :: siblings) => by
      have own := Heeds.call fn (Die.node offset tag attributes (child :: siblings))
      rw [postOrder]
      exact (visitDie_heeds child).orElse ((visitSiblings_heeds siblings).andThen own) own (List.cons_ne_nil _ _)

theorem visitSiblings_heeds : ∀ dies, Heeds fn (visitSiblings (logged fn) dies) (postOrderSiblings dies)
  | [] => by
      rw [postOrderSiblings]
      exact .nil fn
  | die :: rest => by
      rw [postOrderSiblings]
      exact (visitDie_heeds die).andThen (visitSiblings_heeds rest)

end

end Stops

section Lists

variable {Entry State : Type} (fn : Entry → State → Except Exception (Bool × State))

theorem walkSiblings_eq (entries : List Entry) (state : State) :
    walkSiblings fn entries state =
      (callUntilStop fn (entries.map (·, false)) state).map fun outcome => (outcome.1.getD true, outcome.2) := by
  induction entries generalizing state with
  | nil => rfl
  | cons entry rest ih =>
    rw [walkSiblings, List.map_cons, callUntilStop]
    cases fn entry state with
    | error exception => rfl
    | ok answer =>
      obtain ⟨goOn, next⟩ := answer
      cases goOn with
      | false => rfl
      | true => exact ih next

/-- A list is walked up to the first stop, and the result is `true` for a stop at its first DIE. -/
theorem walkDieList_eq (first : Entry) (siblings : List Entry) (state : State) :
    walkDieList fn first siblings state =
      (callUntilStop fn ((first, true) :: siblings.map (·, false)) state).map
        fun outcome => (outcome.1.getD true, outcome.2) := by
  rw [walkDieList, callUntilStop]
  cases fn first state with
  | error exception => rfl
  | ok answer =>
    obtain ⟨goOn, next⟩ := answer
    cases goOn with
    | false => rfl
    | true => exact walkSiblings_eq fn siblings next

/-- The stop that is not reported is the one at the first DIE. -/
theorem callUntilStop_first_iff {first : Entry} {siblings : List Entry} {state next : State} {stop : Option Bool}
    (ran : callUntilStop fn ((first, true) :: siblings.map (·, false)) state = .ok (stop, next)) :
    stop = some true ↔ ∃ behind, fn first state = .ok (false, behind) := by
  rw [callUntilStop] at ran
  cases called : fn first state with
  | error exception =>
    rw [called] at ran
    cases ran
  | ok answer =>
    obtain ⟨goOn, behind⟩ := answer
    rw [called] at ran
    cases goOn with
    | false =>
      obtain ⟨rfl, -⟩ := Prod.mk.inj (Except.ok.inj ran)
      exact ⟨fun _ => ⟨behind, rfl⟩, fun _ => rfl⟩
    | true =>
      constructor
      · rintro rfl
        obtain ⟨entry, member⟩ := exists_mem_of_callUntilStop ran
        obtain ⟨_, -, same⟩ := List.mem_map.mp member
        cases same
      · rintro ⟨_, other⟩
        cases other

theorem walkDieList_faithful_iff {first : Entry} {siblings : List Entry} {state next : State} {goOn : Bool}
    {calls : Calls Entry} (ran : walkDieList (logged fn) first siblings (state, []) = .ok (goOn, next, calls)) :
    FaithfulWalk (first :: siblings) calls goOn ↔ ∀ behind, fn first state ≠ .ok (false, behind) := by
  rw [walkDieList_eq] at ran
  cases called : callUntilStop (logged fn) ((first, true) :: siblings.map (·, false)) (state, []) with
  | error exception =>
    rw [called] at ran
    cases ran
  | ok outcome =>
    obtain ⟨stop, behind, noted⟩ := outcome
    rw [called] at ran
    obtain ⟨rfl, rfl, rfl⟩ : stop.getD true = goOn ∧ behind = next ∧ noted = calls := by simpa [Except.map] using ran
    obtain ⟨plain, more, rfl, stopped⟩ := callUntilStop_logged _ called
    have entries : ((first, true) :: siblings.map (·, false)).map Prod.fst = first :: siblings := by
      simp [Function.comp_def]
    have faithful : FaithfulWalk _ noted (stop.getD true) ↔ (stop.getD true = false ↔ stop ≠ none) :=
      stopped.faithful_iff
    have unreported := callUntilStop_first_iff fn plain
    rw [entries] at faithful
    rw [← not_exists, ← unreported]
    refine faithful.trans ?_
    -- of the three ways to end only the stop at the first DIE has the wrong result
    match stop with
    | none => simp
    | some true => simp
    | some false => simp

theorem walkCompilationUnits_calls (units : List Entry) {state next : State} {calls later : Calls Entry}
    (ran : walkCompilationUnits (logged fn) units (state, calls) = .ok (next, later)) :
    ∃ more, later = calls ++ more ∧ more.length = units.length ∧
      (StopsAtOnce more ↔ NeverStops fn units.dropLast state) := by
  induction units generalizing state calls with
  | nil =>
    obtain ⟨-, rfl⟩ := Prod.mk.inj (Except.ok.inj ran)
    exact ⟨[], (List.append_nil _).symm, rfl, fun _ => trivial, fun _ => nofun⟩
  | cons unit rest ih =>
    rw [walkCompilationUnits_cons] at ran
    cases called : fn unit state with
    | error exception =>
      rw [logged_error called] at ran
      cases ran
    | ok answer =>
      obtain ⟨goOn, behind⟩ := answer
      rw [logged_ok called] at ran
      obtain ⟨more, rfl, counted, stops⟩ := ih ran
      refine ⟨(unit, goOn) :: more, by rw [List.append_assoc, List.singleton_append], congrArg (· + 1) counted, ?_⟩
      -- the answer for the last unit does not matter, for each of the others it does
      cases rest with
      | nil =>
        obtain rfl := List.length_eq_zero_iff.mp counted
        exact ⟨fun _ => trivial, fun _ => nofun⟩
      | cons second rest =>
        have nonempty : more ≠ [] := fun empty => by simp [empty] at counted
        rw [StopsAtOnce, List.dropLast_cons_of_ne_nil nonempty, List.forall_mem_cons, List.dropLast_cons_cons,
          NeverStops]
        refine (and_congr_right' stops).trans ⟨?_, ?_⟩
        · rintro ⟨rfl, agreed⟩
          exact ⟨behind, called, agreed⟩
        · rintro ⟨_, same, agreed⟩
          obtain ⟨rfl, rfl⟩ := Prod.mk.inj (Except.ok.inj (called.symm.trans same))
          exact ⟨rfl, agreed⟩

end Lists

section Results

variable {State : Type} (fn : Die → State → Except Exception (Bool × State))

/-- The walk over a list of DIEs and that over siblings differ in their results only. -/
theorem walkDieList_cons {Entry : Type} (fn : Entry → State → Except Exception (Bool × State)) (first : Entry)
    (siblings : List Entry) (state : State) {goOn : Bool} {next : State}
    (ran : walkDieList fn first siblings state = .ok (goOn, next)) :
    ∃ goOn, walkSiblings fn (first :: siblings) state = .ok (goOn, next) := by
  rw [walkDieList] at ran
  rw [walkSiblings]
  cases called : fn first state with
  | error exception =>
    rw [called] at ran
    cases ran
  | ok answer =>
    obtain ⟨more, behind⟩ := answer
    rw [called] at ran
    cases more with
    | false =>
      obtain ⟨-, rfl⟩ := Prod.mk.inj (Except.ok.inj ran)
      exact ⟨false, rfl⟩
    | true => exact ⟨goOn, ran⟩

/-- The first DIE, in post-order, for which the callback asks to stop is a first child or in the tree of
one, so that the stop is lost on the way. -/
def StopLost (dies : List Die) (state : State) : Prop :=
  (callUntilStop fn (postOrderSiblings dies) state).map Prod.fst = .ok (some false)

theorem walkDieListRecursive_stopsAtOnce_iff {first : Die} {siblings : List Die} {state next : State} {goOn : Bool}
    {calls : Calls Die} (ran : walkDieListRecursive (logged fn) first siblings (state, []) = .ok (goOn, next, calls)) :
    StopsAtOnce calls ↔ ¬ StopLost fn (first :: siblings) state := by
  obtain ⟨answer, walked⟩ := walkDieList_cons _ first siblings (state, []) ran
  rw [walkSiblings_visitDie] at walked
  exact (visitSiblings_heeds fn (first :: siblings)).stopsAtOnce_iff walked

end Results

/-- Walks keep to the first stop exactly where no first DIE of a list asks for it: for a list, its own
first DIE; for trees, a first child or what is below one; for units, any but the last. -/
theorem walks_faithful_iff {State : Type} (fn : Die → State → Except Exception (Bool × State)) :
    (∀ first siblings state goOn next calls,
      walkDieList (logged fn) first siblings (state, []) = .ok (goOn, next, calls) →
        (FaithfulWalk (first :: siblings) calls goOn ↔ ∀ behind, fn first state ≠ .ok (false, behind))) ∧
    (∀ first siblings state goOn next calls,
      walkDieListRecursive (logged fn) first siblings (state, []) = .ok (goOn, next, calls) →
        (StopsAtOnce calls ↔ ¬ StopLost fn (first :: siblings) state)) ∧
    ∀ units state next calls, walkCompilationUnits (logged fn) units (state, []) = .ok (next, calls) →
      (StopsAtOnce calls ↔ NeverStops fn units.dropLast state) := by
  refine ⟨fun first siblings state goOn next calls ran => walkDieList_faithful_iff fn ran,
    fun first siblings state goOn next calls ran => walkDieListRecursive_stopsAtOnce_iff fn ran,
    fun units state next calls ran => ?_⟩
  obtain ⟨more, rfl, -, stops⟩ := walkCompilationUnits_calls fn units ran
  exact stops

section Inputs

def leaf (offset : Nat) : Die := .node offset (.other 0) ⟨none, none, none⟩ []

def branch (offset : Nat) : Die := .node offset (.other 0) ⟨none, none, none⟩ [leaf (offset + 1), leaf (offset + 2)]

def offsetOf : Die → Nat
  | .node offset _ _ _ => offset

def stopAt (offset : Nat) (die : Die) (state : Unit) : Except Exception (Bool × Unit) :=
  .ok (offsetOf die != offset, state)

end Inputs

theorem walks_faithful_iff_at_leaves :
    FaithfulWalk [leaf 0, leaf 1] [(leaf 0, true), (leaf 1, false)] false ∧
      StopsAtOnce [(leaf 1, true), (leaf 2, false)] ∧ StopsAtOnce [(leaf 0, true), (leaf 1, false)] :=
  ⟨((walks_faithful_iff (stopAt 1)).1 (leaf 0) [leaf 1] () false () _ rfl).mpr (by simp [stopAt, offsetOf, leaf]),
    ((walks_faithful_iff (stopAt 2)).2.1 (branch 0) [] () true () _ rfl).mpr nofun,
    ((walks_faithful_iff (stopAt 1)).2.2 [leaf 0, leaf 1] () () _ rfl).mpr ⟨(), rfl, trivial⟩⟩

/-- A stop at the first DIE of a list is not reported. A parent is called for behind the stop of its
first child, and a unit behind the stop of the one before it. -/
theorem walks_not_faithful :
    (∃ calls, walkDieList (logged (stopAt 0)) (leaf 0) [leaf 1] ((), []) = .ok (true, (), calls) ∧
      ¬ FaithfulWalk [leaf 0, leaf 1] calls true) ∧
    (∃ calls, walkDieListRecursive (logged (stopAt 1)) (branch 0) [] ((), []) = .ok (true, (), calls) ∧
      ¬ StopsAtOnce calls) ∧
    ∃ calls, walkCompilationUnits (logged (stopAt 0)) [leaf 0, leaf 1] ((), []) = .ok ((), calls) ∧
      ¬ StopsAtOnce calls := by
  refine ⟨⟨[(leaf 0, false)], rfl, fun faithful => ?_⟩, ⟨[(leaf 1, false), (branch 0, true)], rfl, fun once => ?_⟩,
    [(leaf 0, false), (leaf 1, true)], rfl, fun once => ?_⟩
  · exact Bool.noConfusion (faithful.reports.mpr ⟨(leaf 0, false), List.mem_cons_self, rfl⟩)
  · exact Bool.noConfusion (once (leaf 1, false) List.mem_cons_self)
  · exact Bool.noConfusion (once (leaf 0, false) List.mem_cons_self)

end Cpptrace.Dwarf
