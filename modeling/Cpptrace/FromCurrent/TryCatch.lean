import Mathlib.Data.List.Basic

/-! `cpptrace::try_catch` against the language's `try` block with several handlers.

Exceptions and program states are arbitrary. An attempt also records which
handlers were entered, by their position in the list, so that "at most one
handler runs" can be observed. The interceptor level of `CPPTRACE_TRY` never
catches (its `can_catch` returns false), so it does not appear here.
-/

set_option autoImplicit false

namespace Cpptrace.FromCurrent

variable {E σ : Type}

inductive Outcome (E : Type) where
  | returned
  | threw (exception : E)
  deriving DecidableEq, Repr

structure Attempt (E σ : Type) where
  outcome : Outcome E
  state : σ
  entered : List Nat
  deriving DecidableEq, Repr

/-- A handler: which exceptions its parameter binds, and its body. -/
structure Handler (E σ : Type) where
  accepts : E → Bool
  run : E → σ → Outcome E × σ

abbrev Callable (E σ : Type) := σ → Attempt E σ

def body (f : σ → Outcome E × σ) : Callable E σ :=
  fun state => ⟨(f state).1, (f state).2, []⟩

/-- Entering the handler at `position` with an exception it accepts. -/
def Handler.enter (catcher : Handler E σ) (position : Nat) (exception : E) (attempt : Attempt E σ) :
    Attempt E σ :=
  let (outcome, state) := catcher.run exception attempt.state
  ⟨outcome, state, attempt.entered ++ [position]⟩

def doTryCatch (f : Callable E σ) (position : Nat) (catcher : Handler E σ) : Callable E σ :=
  fun state =>
    let attempt := f state
    match attempt.outcome with
    | .returned => attempt
    | .threw exception =>
        if catcher.accepts exception then catcher.enter position exception attempt else attempt

/-- The first handler is matched at the innermost level; each later one wraps all before it. -/
def tryCatchImpl (f : Callable E σ) : Nat → List (Handler E σ) → Callable E σ
  | _, [] => f
  | position, catcher :: catches =>
      tryCatchImpl (doTryCatch f position catcher) (position + 1) catches

def tryCatch (f : σ → Outcome E × σ) (catches : List (Handler E σ)) : Callable E σ :=
  tryCatchImpl (body f) 0 catches

/-- The handler a language `try` block selects, with its position. -/
def firstMatch (exception : E) : Nat → List (Handler E σ) → Option (Nat × Handler E σ)
  | _, [] => none
  | position, catcher :: catches =>
      if catcher.accepts exception then some (position, catcher)
      else firstMatch exception (position + 1) catches

/-- The language's `try` block: one handler is selected for the exception of the
block, and what leaves that handler leaves the whole statement. -/
def tryBlock (f : σ → Outcome E × σ) (catches : List (Handler E σ)) : Callable E σ :=
  fun state =>
    let attempt := body f state
    match attempt.outcome with
    | .returned => attempt
    | .threw exception =>
        match firstMatch exception 0 catches with
        | none => attempt
        | some (position, catcher) => catcher.enter position exception attempt

theorem tryCatchImpl_of_returned {f : Callable E σ} {state : σ} (done : (f state).outcome = .returned)
    (position : Nat) (catches : List (Handler E σ)) :
    tryCatchImpl f position catches state = f state := by
  induction catches generalizing f position with
  | nil => rfl
  | cons catcher catches ih =>
    have passed : doTryCatch f position catcher state = f state := by simp [doTryCatch, done]
    rw [tryCatchImpl, ih (passed ▸ done), passed]

theorem tryCatchImpl_append (f : Callable E σ) (position : Nat) (first rest : List (Handler E σ)) :
    tryCatchImpl f position (first ++ rest) =
      tryCatchImpl (tryCatchImpl f position first) (position + first.length) rest := by
  induction first generalizing f position with
  | nil => rfl
  | cons catcher first ih => simp [tryCatchImpl, ih, Nat.add_assoc, Nat.add_comm 1]

theorem tryCatchImpl_of_refused {f : Callable E σ} {state : σ} {exception : E}
    (thrown : (f state).outcome = .threw exception) (position : Nat) {catches : List (Handler E σ)}
    (refused : ∀ catcher ∈ catches, catcher.accepts exception = false) :
    tryCatchImpl f position catches state = f state := by
  induction catches generalizing f position with
  | nil => rfl
  | cons catcher catches ih =>
    have passed : doTryCatch f position catcher state = f state := by
      simp [doTryCatch, thrown, refused catcher (by simp)]
    rw [tryCatchImpl, ih (passed ▸ thrown) (position + 1) fun other member => refused other (by simp [member]),
      passed]

theorem entered_append (f : Callable E σ) (state : σ) (position : Nat) (catches : List (Handler E σ)) :
    (f state).entered <+: (tryCatchImpl f position catches state).entered := by
  induction catches generalizing f position with
  | nil => exact List.prefix_rfl
  | cons catcher catches ih =>
    refine List.IsPrefix.trans ?_ (ih (doTryCatch f position catcher) (position + 1))
    simp only [doTryCatch]
    split
    · exact List.prefix_rfl
    · split
      · exact List.prefix_append _ _
      · exact List.prefix_rfl

/-- A handler that accepts the exception is entered, here or after an earlier one. -/
theorem tryCatchImpl_of_accepted {f : Callable E σ} {state : σ} {exception : E}
    (thrown : (f state).outcome = .threw exception) (position : Nat) {catches : List (Handler E σ)}
    {catcher : Handler E σ} (member : catcher ∈ catches) (accepted : catcher.accepts exception) :
    (f state).entered.length < (tryCatchImpl f position catches state).entered.length := by
  induction catches generalizing f position with
  | nil => simp at member
  | cons first catches ih =>
    rw [tryCatchImpl]
    by_cases taken : first.accepts exception
    -- entered here; those behind it can only add to that
    · have longer := (entered_append (doTryCatch f position first) state (position + 1) catches).length_le
      simp only [doTryCatch, thrown, taken, if_true, Handler.enter, List.length_append,
        List.length_singleton] at longer
      exact longer
    · have passed : doTryCatch f position first state = f state := by simp [doTryCatch, thrown, taken]
      have later : catcher ∈ catches := by
        rcases List.mem_cons.mp member with same | later
        · exact absurd (same ▸ accepted) taken
        · exact later
      have tail := ih (f := doTryCatch f position first) (passed ▸ thrown) (position + 1) later
      rwa [passed] at tail

theorem tryCatchImpl_eq_self_iff {f : Callable E σ} {state : σ} {exception : E}
    (thrown : (f state).outcome = .threw exception) (position : Nat) (catches : List (Handler E σ)) :
    tryCatchImpl f position catches state = f state ↔
      ∀ catcher ∈ catches, catcher.accepts exception = false := by
  refine ⟨fun same catcher member => ?_, tryCatchImpl_of_refused thrown position⟩
  by_contra accepted
  have longer := tryCatchImpl_of_accepted thrown position member (by simpa using accepted)
  rw [same] at longer
  exact Nat.lt_irrefl _ longer

theorem firstMatch_append {exception : E} {first : List (Handler E σ)}
    (refused : ∀ catcher ∈ first, catcher.accepts exception = false) (position : Nat)
    (rest : List (Handler E σ)) :
    firstMatch exception position (first ++ rest) =
      firstMatch exception (position + first.length) rest := by
  induction first generalizing position with
  | nil => rfl
  | cons catcher first ih =>
    have head : catcher.accepts exception = false := refused catcher (by simp)
    have tail := ih (fun other member => refused other (by simp [member])) (position + 1)
    simp [firstMatch, head, tail, Nat.add_assoc, Nat.add_comm 1]

/-- Handlers either all refuse an exception or split at the first that accepts it. -/
theorem refused_or_split (exception : E) (catches : List (Handler E σ)) :
    (∀ catcher ∈ catches, catcher.accepts exception = false) ∨
    ∃ first chosen later, catches = first ++ chosen :: later ∧
      (∀ catcher ∈ first, catcher.accepts exception = false) ∧ chosen.accepts exception := by
  cases found : catches.find? (·.accepts exception) with
  | none => exact Or.inl fun catcher member => by simpa using List.find?_eq_none.mp found catcher member
  | some chosen =>
    obtain ⟨accepted, first, later, split, refused⟩ := List.find?_eq_some_iff_append.mp found
    exact Or.inr ⟨first, chosen, later, split, fun catcher member => by simpa using refused catcher member,
      accepted⟩

/-- A later handler is in the way of the statement when it accepts what the chosen one throws. -/
def EscapesLater (f : σ → Outcome E × σ) (catches : List (Handler E σ)) (state : σ) : Prop :=
  ∀ exception first chosen later thrown,
    (f state).1 = .threw exception →
    catches = first ++ chosen :: later →
    (∀ catcher ∈ first, catcher.accepts exception = false) →
    chosen.accepts exception →
    (chosen.run exception (f state).2).1 = .threw thrown →
    ∀ catcher ∈ later, catcher.accepts thrown = false

theorem EscapesLater_iff_of_split {f : σ → Outcome E × σ} {state : σ} {exception : E}
    {first later : List (Handler E σ)} {chosen : Handler E σ} (thrown : (f state).1 = .threw exception)
    (refused : ∀ catcher ∈ first, catcher.accepts exception = false)
    (accepted : chosen.accepts exception) :
    EscapesLater f (first ++ chosen :: later) state ↔
      ∀ left, (chosen.run exception (f state).2).1 = .threw left →
        ∀ catcher ∈ later, catcher.accepts left = false := by
  constructor
  · intro escapes left leaves
    exact escapes exception first chosen later left thrown rfl refused accepted leaves
  · intro escapes other before picked after left sameThrown split refused' accepted' leaves
    cases thrown.symm.trans sameThrown
    -- a list of handlers is split at the first that accepts in one way only
    have mine := firstMatch_append refused 0 (chosen :: later)
    have other := firstMatch_append refused' 0 (picked :: after)
    rw [split, other] at mine
    simp only [firstMatch, accepted, accepted', if_true, Option.some.injEq, Prod.mk.injEq] at mine
    obtain ⟨lengths, rfl⟩ := mine
    obtain ⟨-, tails⟩ := List.append_inj split (by omega)
    cases tails
    exact escapes left leaves

/-- `try_catch` is the language's `try` block, handlers entered included, exactly
when no later handler accepts the exception that leaves the chosen one. -/
theorem tryCatch_eq_tryBlock_iff (f : σ → Outcome E × σ) (catches : List (Handler E σ)) (state : σ) :
    tryCatch f catches state = tryBlock f catches state ↔ EscapesLater f catches state := by
  cases outcome : (f state).1 with
  | returned =>
    have done : (body f state).outcome = .returned := outcome
    have escapes : EscapesLater f catches state := by simp [EscapesLater, outcome]
    simp [tryCatch, tryBlock, tryCatchImpl_of_returned done, done, escapes]
  | threw exception =>
    have thrown : (body f state).outcome = .threw exception := outcome
    rcases refused_or_split exception catches with refused | ⟨first, chosen, later, rfl, refused, accepted⟩
    · have unmatched := firstMatch_append refused 0 []
      have escapes : EscapesLater f catches state := by
        intro other first chosen later _ same split _ accepted _
        cases outcome.symm.trans same
        have member : chosen ∈ catches := by simp [split]
        simp [refused chosen member] at accepted
      rw [List.append_nil] at unmatched
      simp [tryCatch, tryBlock, tryCatchImpl_of_refused thrown 0 refused, thrown, unmatched, firstMatch,
        escapes]
    -- the handlers before the chosen one do nothing; those after it enclose its body
    · have passed := tryCatchImpl_of_refused thrown 0 refused
      have selected := firstMatch_append refused 0 (chosen :: later)
      simp only [firstMatch, accepted, if_true, Nat.zero_add] at selected
      have entering : doTryCatch (tryCatchImpl (body f) 0 first) first.length chosen state =
          chosen.enter first.length exception (body f state) := by
        simp [doTryCatch, passed, thrown, accepted]
      have flat : tryBlock f (first ++ chosen :: later) state =
          chosen.enter first.length exception (body f state) := by
        simp [tryBlock, thrown, selected]
      rw [tryCatch, tryCatchImpl_append, Nat.zero_add, tryCatchImpl, flat, ← entering,
        EscapesLater_iff_of_split outcome refused accepted]
      cases leaves : (chosen.run exception (f state).2).1 with
      | returned =>
        have done : (doTryCatch (tryCatchImpl (body f) 0 first) first.length chosen state).outcome =
            .returned := by rw [entering]; exact leaves
        simp [tryCatchImpl_of_returned done]
      | threw left =>
        have escaped : (doTryCatch (tryCatchImpl (body f) 0 first) first.length chosen state).outcome =
            .threw left := by rw [entering]; exact leaves
        simp [tryCatchImpl_eq_self_iff escaped]

/-- The first handler turns exception 1 into exception 2, which the second one accepts. -/
theorem tryCatch_eq_tryBlock_fails :
    let f : Unit → Outcome Nat × Unit := fun state => (.threw 1, state)
    let catches : List (Handler Nat Unit) :=
      [⟨(· == 1), fun _ state => (.threw 2, state)⟩, ⟨(· == 2), fun _ state => (.returned, state)⟩]
    tryCatch f catches () = ⟨.returned, (), [0, 1]⟩ ∧ tryBlock f catches () = ⟨.threw 2, (), [0]⟩ := by
  decide

end Cpptrace.FromCurrent
