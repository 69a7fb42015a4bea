import Cpptrace.Library.Command
import Mathlib.Data.List.Basic

/-! Walks that ask a callback whether to go on.

A walk may call back for many entries and lose what it is told. What it should do is
to call until the first answer that asks to stop, and no further.
-/

set_option autoImplicit false

namespace Cpptrace.Library

variable {ε α τ υ σ : Type}

section Callbacks

abbrev Callback (ε σ α : Type) := α → σ → Except ε (Bool × σ)

abbrev Calls (α : Type) := List (α × Bool)

def logged (fn : Callback ε σ α) : Callback ε (σ × Calls α) α :=
  fun entry state => (fn entry state.1).map fun answer => (answer.1, answer.2, state.2 ++ [(entry, answer.1)])

/-- No call follows one that asked to stop. -/
def StopsAtOnce (calls : Calls α) : Prop := ∀ call ∈ calls.dropLast, call.2 = true

/-- What a walk over entries should do: calls in order up to the first that asks to stop, and a result
that says whether one did. -/
structure FaithfulWalk (entries : List α) (calls : Calls α) (goOn : Bool) : Prop where
  inOrder : calls.map Prod.fst <+: entries
  once : StopsAtOnce calls
  ends : calls.map Prod.fst = entries ∨ ∃ call ∈ calls.getLast?, call.2 = false
  reports : goOn = false ↔ ∃ call ∈ calls, call.2 = false

/-- Calls on entries in order, up to the first that asks to stop, whose mark is the result. -/
def callUntilStop (fn : Callback ε σ α) : List (α × τ) → σ → Except ε (Option τ × σ)
  | [], state => .ok (none, state)
  | (entry, mark) :: rest, state =>
      match fn entry state with
      | .error failure => .error failure
      | .ok (true, next) => callUntilStop fn rest next
      | .ok (false, next) => .ok (some mark, next)

/-- The callback asks to go on for each of the entries, in order. -/
def NeverStops (fn : Callback ε σ α) : List α → σ → Prop
  | [], _ => True
  | entry :: rest, state => ∃ next, fn entry state = .ok (true, next) ∧ NeverStops fn rest next

def Stopped (entries : List (α × τ)) (calls : Calls α) : Option τ → Prop
  | none => calls = entries.map fun entry => (entry.1, true)
  | some mark => ∃ before entry after, entries = before ++ (entry, mark) :: after ∧
      calls = (before.map fun entry => (entry.1, true)) ++ [(entry, false)]

variable {fn : Callback ε σ α}

theorem logged_ok {entry : α} {state next : σ} {goOn : Bool} (ran : fn entry state = .ok (goOn, next))
    (calls : Calls α) :
    logged fn entry (state, calls) = .ok (goOn, next, calls ++ [(entry, goOn)]) := by
  rw [logged, ran]
  rfl

theorem logged_error {entry : α} {state : σ} {failure : ε} (ran : fn entry state = .error failure) (calls : Calls α) :
    logged fn entry (state, calls) = .error failure := by
  rw [logged, ran]
  rfl

theorem callUntilStop_append (first second : List (α × τ)) (state : σ) :
    callUntilStop fn (first ++ second) state =
      match callUntilStop fn first state with
      | .error failure => .error failure
      | .ok (none, next) => callUntilStop fn second next
      | .ok (some mark, next) => .ok (some mark, next) := by
  induction first generalizing state with
  | nil => rfl
  | cons head rest ih =>
    rw [List.cons_append, callUntilStop, callUntilStop]
    cases fn head.1 state with
    | error failure => rfl
    | ok answer =>
      obtain ⟨goOn, next⟩ := answer
      cases goOn with
      | false => rfl
      | true => exact ih next

theorem callUntilStop_map (change : τ → υ) (entries : List (α × τ)) (state : σ) :
    callUntilStop fn (entries.map fun entry => (entry.1, change entry.2)) state =
      (callUntilStop fn entries state).map fun outcome => (outcome.1.map change, outcome.2) := by
  induction entries generalizing state with
  | nil => rfl
  | cons head rest ih =>
    rw [List.map_cons, callUntilStop, callUntilStop]
    cases fn head.1 state with
    | error failure => rfl
    | ok answer =>
      obtain ⟨goOn, next⟩ := answer
      cases goOn with
      | false => rfl
      | true => exact ih next

theorem callUntilStop_logged (entries : List (α × τ)) {state next : σ} {calls later : Calls α} {stop : Option τ}
    (ran : callUntilStop (logged fn) entries (state, calls) = .ok (stop, next, later)) :
    callUntilStop fn entries state = .ok (stop, next) ∧ ∃ more, later = calls ++ more ∧ Stopped entries more stop := by
  induction entries generalizing state calls with
  | nil =>
    obtain ⟨rfl, rfl, rfl⟩ : none = stop ∧ state = next ∧ calls = later := by simpa [callUntilStop] using ran
    exact ⟨rfl, [], (List.append_nil _).symm, rfl⟩
  | cons head rest ih =>
    rw [callUntilStop] at ran ⊢
    cases called : fn head.1 state with
    | error failure =>
      rw [logged_error called] at ran
      cases ran
    | ok answer =>
      obtain ⟨goOn, behind⟩ := answer
      rw [logged_ok called] at ran
      cases goOn with
      | false =>
        obtain ⟨rfl, rfl, rfl⟩ : some head.2 = stop ∧ behind = next ∧ calls ++ [(head.1, false)] = later := by
          simpa using ran
        exact ⟨rfl, [(head.1, false)], rfl, [], head.1, rest, rfl, rfl⟩
      | true =>
        obtain ⟨same, more, rfl, stopped⟩ := ih ran
        refine ⟨same, (head.1, true) :: more, by rw [List.append_assoc, List.singleton_append], ?_⟩
        cases stop with
        | none => exact congrArg (List.cons (head.1, true)) stopped
        | some mark =>
          obtain ⟨before, entry, after, rfl, rfl⟩ := stopped
          exact ⟨head :: before, entry, after, rfl, rfl⟩

theorem exists_mem_of_callUntilStop {entries : List (α × τ)} {state next : σ} {mark : τ}
    (ran : callUntilStop fn entries state = .ok (some mark, next)) : ∃ entry, (entry, mark) ∈ entries := by
  induction entries generalizing state with
  | nil => cases ran
  | cons head rest ih =>
    rw [callUntilStop] at ran
    split at ran
    next => cases ran
    next =>
      obtain ⟨entry, member⟩ := ih ran
      exact ⟨entry, List.mem_cons_of_mem _ member⟩
    next =>
      obtain ⟨rfl, -⟩ : head.2 = mark ∧ _ := by simpa using ran
      exact ⟨head.1, List.mem_cons_self⟩

theorem Stopped.map_fst_prefix {entries : List (α × τ)} {calls : Calls α} {stop : Option τ}
    (stopped : Stopped entries calls stop) : calls.map Prod.fst <+: entries.map Prod.fst := by
  cases stop with
  | none =>
    obtain rfl := stopped
    simp [Function.comp_def]
  | some mark =>
    obtain ⟨before, entry, after, rfl, rfl⟩ := stopped
    exact ⟨after.map Prod.fst, by simp [Function.comp_def]⟩

theorem Stopped.stopsAtOnce {entries : List (α × τ)} {calls : Calls α} {stop : Option τ}
    (stopped : Stopped entries calls stop) : StopsAtOnce calls := by
  have agreed (entries : List (α × τ)) : ∀ call ∈ entries.map fun entry => (entry.1, true), call.2 = true := by
    intro call member
    obtain ⟨_, -, rfl⟩ := List.mem_map.mp member
    rfl
  intro call member
  cases stop with
  | none =>
    obtain rfl := stopped
    exact agreed entries call (List.dropLast_subset _ member)
  | some mark =>
    obtain ⟨before, entry, after, -, rfl⟩ := stopped
    rw [List.dropLast_concat] at member
    exact agreed before call member

theorem Stopped.exists_false_iff {entries : List (α × τ)} {calls : Calls α} {stop : Option τ}
    (stopped : Stopped entries calls stop) : (∃ call ∈ calls, call.2 = false) ↔ stop ≠ none := by
  cases stop with
  | none =>
    obtain rfl := stopped
    simp
  | some mark =>
    obtain ⟨before, entry, after, -, rfl⟩ := stopped
    simp

/-- Calls up to a stop are those of a faithful walk if the result says how they ended. -/
theorem Stopped.faithful_iff {entries : List (α × τ)} {calls : Calls α} {stop : Option τ} {goOn : Bool}
    (stopped : Stopped entries calls stop) :
    FaithfulWalk (entries.map Prod.fst) calls goOn ↔ (goOn = false ↔ stop ≠ none) := by
  have asked := stopped.exists_false_iff
  refine ⟨fun faithful => faithful.reports.trans asked, fun reports => ?_⟩
  refine ⟨stopped.map_fst_prefix, stopped.stopsAtOnce, ?_, reports.trans asked.symm⟩
  cases stop with
  | none =>
    obtain rfl := stopped
    exact .inl (by simp [Function.comp_def])
  | some mark =>
    obtain ⟨before, entry, after, -, rfl⟩ := stopped
    exact .inr ⟨(entry, false), by simp, rfl⟩

theorem not_stopsAtOnce {calls more : Calls α} (stopped : ∃ call ∈ calls, call.2 = false) (goesOn : more ≠ []) :
    ¬ StopsAtOnce (calls ++ more) := by
  obtain ⟨call, member, stop⟩ := stopped
  intro once
  rw [StopsAtOnce, List.dropLast_append_of_ne_nil goesOn] at once
  exact absurd (once call (List.mem_append_left _ member)) (by simp [stop])

end Callbacks

section Walks

abbrev Walk (ε σ α : Type) := σ × Calls α → Except ε (Bool × (σ × Calls α))

/-- A walk calls for entries in order, with `true` for those whose stop gets through to its result.
After a stop at one of the others it makes more calls. -/
def Heeds (fn : Callback ε σ α) (walk : Walk ε σ α) (entries : List (α × Bool)) : Prop :=
  ∀ state,
    match callUntilStop (logged fn) entries state with
    | .error failure => walk state = .error failure
    | .ok (none, next) => walk state = .ok (true, next)
    | .ok (some true, next) => walk state = .ok (false, next)
    | .ok (some false, next) =>
        ∀ goOn later, walk state = .ok (goOn, later) → ∃ more, more ≠ [] ∧ later.2 = next.2 ++ more

namespace Heeds

variable {fn : Callback ε σ α} {walk first second last : Walk ε σ α} {entries firsts seconds lasts : List (α × Bool)}

theorem call (fn : Callback ε σ α) (entry : α) : Heeds fn (logged fn entry) [(entry, true)] := by
  intro state
  rw [callUntilStop]
  cases logged fn entry state with
  | error failure => rfl
  | ok answer =>
    obtain ⟨goOn, next⟩ := answer
    cases goOn <;> rfl

theorem nil (fn : Callback ε σ α) : Heeds fn (fun state => .ok (true, state)) [] := fun _ => rfl

/-- The log of a walk grows, and does so if there is an entry to call for. -/
theorem grows (heeds : Heeds fn walk entries) {state later : σ × Calls α} {goOn : Bool}
    (ran : walk state = .ok (goOn, later)) : ∃ more, later.2 = state.2 ++ more ∧ (entries ≠ [] → more ≠ []) := by
  have here := heeds state
  cases called : callUntilStop (logged fn) entries state with
  | error failure =>
    rw [called, ran] at here
    cases here
  | ok outcome =>
    obtain ⟨stop, next⟩ := outcome
    obtain ⟨-, more, grown, stopped⟩ := callUntilStop_logged entries called
    have nonempty : entries ≠ [] → more ≠ [] := by
      intro known
      cases stop with
      | none =>
        obtain rfl := stopped
        simpa using known
      | some mark =>
        obtain ⟨before, entry, after, -, rfl⟩ := stopped
        simp
    rw [called] at here
    match stop with
    | none =>
      obtain ⟨-, rfl⟩ := Prod.mk.inj (Except.ok.inj (ran.symm.trans here))
      exact ⟨more, grown, nonempty⟩
    | some true =>
      obtain ⟨-, rfl⟩ := Prod.mk.inj (Except.ok.inj (ran.symm.trans here))
      exact ⟨more, grown, nonempty⟩
    | some false =>
      obtain ⟨extra, -, further⟩ := here goOn later ran
      exact ⟨more ++ extra, by rw [further, grown, List.append_assoc],
        fun known empty => nonempty known (List.append_eq_nil_iff.mp empty).1⟩

theorem lost_bind {state : σ × Calls α} {next : Bool × (σ × Calls α) → Except ε (Bool × (σ × Calls α))}
    {calls : Calls α}
    (lost : ∀ goOn later, first state = .ok (goOn, later) → ∃ more, more ≠ [] ∧ later.2 = calls ++ more)
    (grows : ∀ answer goOn later, next answer = .ok (goOn, later) → ∃ more, later.2 = answer.2.2 ++ more) :
    ∀ goOn later, (first state >>= next) = .ok (goOn, later) → ∃ more, more ≠ [] ∧ later.2 = calls ++ more := by
  intro goOn later ran
  obtain ⟨answer, walked, continued⟩ := (Outcome.bind_eq_ok_iff _ _ _).mp ran
  obtain ⟨more, goesOn, grown⟩ := lost answer.1 answer.2 walked
  obtain ⟨extra, further⟩ := grows answer goOn later continued
  exact ⟨more ++ extra, fun empty => goesOn (List.append_eq_nil_iff.mp empty).1,
    by rw [further, grown, List.append_assoc]⟩

/-- A second walk where the first one was not stopped. Stops of both get through. -/
theorem andThen (heeds : Heeds fn first firsts) (next : Heeds fn second seconds) :
    Heeds fn (fun state => first state >>= fun answer => if answer.1 then second answer.2 else .ok (false, answer.2))
      (firsts ++ seconds) := by
  intro state
  have here := heeds state
  rw [callUntilStop_append]
  cases called : callUntilStop (logged fn) firsts state with
  | error failure =>
    rw [called] at here
    exact congrArg (· >>= _) here
  | ok outcome =>
    obtain ⟨stop, behind⟩ := outcome
    rw [called] at here
    match stop with
    | none =>
      simp only [here]
      exact next behind
    | some true =>
      simp only [here]
      rfl
    | some false =>
      -- lost within the first walk, which may end either way
      refine lost_bind here fun answer goOn later ran => ?_
      split at ran
      · obtain ⟨more, grown, -⟩ := next.grows ran
        exact ⟨more, grown⟩
      · obtain ⟨-, rfl⟩ := Prod.mk.inj (Except.ok.inj ran)
        exact ⟨[], (List.append_nil _).symm⟩

/-- A walk that goes on with one of two others, and makes calls where it was stopped, loses each stop. -/
theorem orElse (heeds : Heeds fn first firsts) (next : Heeds fn second seconds) (other : Heeds fn last lasts)
    (calls : lasts ≠ []) :
    Heeds fn (fun state => first state >>= fun answer => if answer.1 then second answer.2 else last answer.2)
      ((firsts.map fun entry => (entry.1, false)) ++ seconds) := by
  have grows : ∀ (answer : Bool × (σ × Calls α)) goOn later,
      (if answer.1 then second answer.2 else last answer.2) = .ok (goOn, later) →
      ∃ more, later.2 = answer.2.2 ++ more := by
    intro answer goOn later ran
    split at ran
    · obtain ⟨more, grown, -⟩ := next.grows ran
      exact ⟨more, grown⟩
    · obtain ⟨more, grown, -⟩ := other.grows ran
      exact ⟨more, grown⟩
  intro state
  have here := heeds state
  have marked : callUntilStop (logged fn) (firsts.map fun entry => (entry.1, false)) state =
      (callUntilStop (logged fn) firsts state).map fun outcome => (outcome.1.map fun _ => false, outcome.2) :=
    callUntilStop_map (fun _ => false) firsts state
  rw [callUntilStop_append, marked]
  cases called : callUntilStop (logged fn) firsts state with
  | error failure =>
    rw [called] at here
    exact congrArg (· >>= _) here
  | ok outcome =>
    obtain ⟨stop, behind⟩ := outcome
    rw [called] at here
    match stop with
    | none =>
      simp only [Except.map, Option.map_none, here]
      exact next behind
    | some true =>
      -- the stop got through, but the other walk is made for it
      intro goOn later ran
      simp only [here] at ran
      obtain ⟨more, grown, some⟩ := other.grows ran
      exact ⟨more, some calls, grown⟩
    | some false => exact lost_bind here grows

/-- A walk keeps to the first stop if and only if that stop is one that gets through. -/
theorem stopsAtOnce_iff (heeds : Heeds fn walk entries) {state next : σ} {goOn : Bool} {calls : Calls α}
    (ran : walk (state, []) = .ok (goOn, next, calls)) :
    StopsAtOnce calls ↔ (callUntilStop fn entries state).map Prod.fst ≠ .ok (some false) := by
  have here := heeds (state, [])
  cases called : callUntilStop (logged fn) entries (state, []) with
  | error failure =>
    rw [called, ran] at here
    cases here
  | ok outcome =>
    obtain ⟨stop, behind, noted⟩ := outcome
    obtain ⟨plain, more, rfl, stopped⟩ := callUntilStop_logged entries called
    rw [called] at here
    rw [plain]
    match stop with
    | none =>
      obtain ⟨-, -, rfl⟩ : true = goOn ∧ behind = next ∧ noted = calls := by simpa using here.symm.trans ran
      exact ⟨fun _ => by simp [Except.map], fun _ => stopped.stopsAtOnce⟩
    | some true =>
      obtain ⟨-, -, rfl⟩ : false = goOn ∧ behind = next ∧ noted = calls := by simpa using here.symm.trans ran
      exact ⟨fun _ => by simp [Except.map], fun _ => stopped.stopsAtOnce⟩
    | some false =>
      obtain ⟨extra, goesOn, rfl⟩ := here goOn (next, calls) ran
      have asked := stopped.exists_false_iff.mpr (by simp)
      exact ⟨fun once => absurd once (not_stopsAtOnce asked goesOn), fun other => absurd rfl other⟩

end Heeds

end Walks

end Cpptrace.Library
