import Mathlib.Logic.Basic

/-! Commands that change a state and may fail, with rules for total correctness.

A failed command keeps the state it failed in, so that a caller may drop the
failure and go on. `Returns` says which value a command gives; termination and
success are part of it.
-/

set_option autoImplicit false

namespace Cpptrace.Library

variable {ε σ τ α β : Type}

abbrev Command (ε σ : Type) := ExceptT ε (StateM σ)

def dropResult (command : Command ε σ α) : Command ε σ Unit :=
  fun state => (.ok (), (command state).2)

def onPart (read : τ → σ) (write : τ → σ → τ) (command : Command ε σ α) : Command ε τ α :=
  fun state => ((command (read state)).1, write state (command (read state)).2)

namespace Outcome

theorem pure_eq_ok_iff (value result : α) : (pure value : Except ε α) = .ok result ↔ value = result :=
  Except.ok.injEq value result ▸ Iff.rfl

theorem throw_ne_ok (failure : ε) (result : α) : (throw failure : Except ε α) ≠ .ok result := nofun

theorem ok_ne_error (value : α) (failure : ε) : (.ok value : Except ε α) ≠ .error failure := nofun

theorem ok_bind (value : α) (next : α → Except ε β) : ((.ok value : Except ε α) >>= next) = next value := rfl

theorem error_bind (failure : ε) (next : α → Except ε β) :
    ((.error failure : Except ε α) >>= next) = .error failure := rfl

theorem bind_eq_ok_iff (outcome : Except ε α) (next : α → Except ε β) (result : β) :
    (outcome >>= next) = .ok result ↔ ∃ value, outcome = .ok value ∧ next value = .ok result := by
  cases outcome with
  | error failure => exact ⟨nofun, fun ⟨_, failed, _⟩ => nomatch failed⟩
  | ok value => exact ⟨fun same => ⟨value, rfl, same⟩, fun ⟨_, rfl, same⟩ => same⟩

def FailsOnly (allowed : ε → Prop) (outcome : Except ε α) :
    Prop := ∀ failure, outcome = .error failure → allowed failure

theorem failsOnly_ok (allowed : ε → Prop) (value : α) : FailsOnly allowed (.ok value) := nofun

theorem failsOnly_error {allowed : ε → Prop} {failure : ε} (holds : allowed failure) :
    FailsOnly allowed (.error failure : Except ε α) := by
  rintro _ ⟨⟩
  exact holds

theorem FailsOnly.bind {allowed : ε → Prop} {outcome : Except ε α} {next : α → Except ε β}
    (first : FailsOnly allowed outcome) (second : ∀ value, outcome = .ok value → FailsOnly allowed (next value)) :
    FailsOnly allowed (outcome >>= next) := by
  cases outcome with
  | ok value => exact second value rfl
  | error failure =>
    rintro _ ⟨⟩
    exact first failure rfl

theorem FailsOnly.first {allowed : ε → Prop} {outcome : Except ε α} {next : α → Except ε β}
    (whole : FailsOnly allowed (outcome >>= next)) : FailsOnly allowed outcome := by
  rintro failure rfl
  exact whole failure rfl

theorem FailsOnly.second {allowed : ε → Prop} {outcome : Except ε α} {value : α} {next : α → Except ε β}
    (whole : FailsOnly allowed (outcome >>= next)) (known : outcome = .ok value) : FailsOnly allowed (next value) := by
  subst known
  exact whole

/-- A sequence fails as its first part does, if the second always has a value. -/
theorem failsOnly_bind_iff {allowed : ε → Prop} {outcome : Except ε α} {next : α → Except ε β}
    (total : ∀ value, ∃ result, next value = .ok result) :
    FailsOnly allowed (outcome >>= next) ↔ FailsOnly allowed outcome := by
  refine ⟨FailsOnly.first, fun only => only.bind fun value _ => ?_⟩
  obtain ⟨result, known⟩ := total value
  rw [known]
  exact failsOnly_ok allowed result

theorem failsOnly_map_iff {allowed : ε → Prop} (outcome : Except ε α) (change : α → β) :
    FailsOnly allowed (change <$> outcome) ↔ FailsOnly allowed outcome :=
  failsOnly_bind_iff fun value => ⟨change value, rfl⟩

theorem FailsOnly.weaken {allowed allowed' : ε → Prop} {outcome : Except ε α} (only : FailsOnly allowed outcome)
    (implies : ∀ failure, allowed failure → allowed' failure) : FailsOnly allowed' outcome :=
  fun failure failed => implies failure (only failure failed)

theorem failsOnly_mapM {allowed : ε → Prop} {action : α → Except ε β} (each : ∀ value, FailsOnly allowed (action value))
    (values : List α) : FailsOnly allowed (values.mapM action) := by
  induction values with
  | nil => exact failsOnly_ok allowed []
  | cons value rest ih =>
    rw [List.mapM_cons]
    exact (each value).bind fun _ _ => ih.bind fun _ _ => failsOnly_ok allowed _

/-- A loop over indices reads a list of values, if each turn reads the value there. -/
theorem mapM_range_ok (values : List β) (action : Nat → Except ε β)
    (each : ∀ i value, values[i]? = some value → action i = .ok value) :
    (List.range values.length).mapM action = .ok values := by
  induction values generalizing action with
  | nil => rfl
  | cons value rest ih =>
    have first := each 0 value rfl
    have others := ih (fun i => action (i + 1)) fun i other found => each (i + 1) other found
    rw [List.length_cons, List.range_succ_eq_map, List.mapM_cons, List.mapM_map, first]
    exact congrArg (· >>= fun values => Except.ok (value :: values)) others

end Outcome

namespace Command

variable (state : σ)

@[simp] theorem pure_apply (value : α) : (pure value : Command ε σ α) state = (.ok value, state) := rfl

@[simp] theorem throw_apply (failure : ε) :
    (throw failure : Command ε σ α) state = (.error failure, state) := rfl

@[simp] theorem get_apply : (get : Command ε σ σ) state = (.ok state, state) := rfl

@[simp] theorem modify_apply (change : σ → σ) :
    (modify change : Command ε σ Unit) state = (.ok (), change state) := rfl

@[simp] theorem ofExcept_apply (result : Except ε α) :
    (MonadExcept.ofExcept result : Command ε σ α) state = (result, state) := by
  cases result <;> rfl

@[simp] theorem ite_apply (condition : Prop) [Decidable condition] (first second : Command ε σ α) :
    (if condition then first else second) state =
      if condition then first state else second state := by
  split <;> rfl

@[simp] theorem bind_apply (command : Command ε σ α) (next : α → Command ε σ β) :
    (command >>= next) state =
      match (command state).1 with
      | .ok value => next value (command state).2
      | .error failure => (.error failure, (command state).2) := by
  show (StateT.bind command (ExceptT.bindCont next)) state = _
  unfold StateT.bind
  show ExceptT.bindCont next (command state).1 (command state).2 = _
  cases (command state).1 with
  | ok value => rfl
  | error failure => rfl

@[simp] theorem map_apply (command : Command ε σ α) (change : α → β) :
    (change <$> command) state =
      match (command state).1 with
      | .ok value => (.ok (change value), (command state).2)
      | .error failure => (.error failure, (command state).2) :=
  bind_apply state command fun value => pure (change value)

@[simp] theorem discard_apply (command : Command ε σ α) :
    (discard command) state =
      match (command state).1 with
      | .ok _ => (.ok (), (command state).2)
      | .error failure => (.error failure, (command state).2) :=
  bind_apply state command fun _ => pure ()

theorem tryCatch_apply (command : Command ε σ α) (handler : ε → Command ε σ α) :
    (tryCatch command handler) state =
      match (command state).1 with
      | .ok value => (.ok value, (command state).2)
      | .error failure => handler failure (command state).2 := by
  have same : (tryCatch command handler) state =
      StateT.bind command (fun outcome => match outcome with
        | .ok value => (pure (.ok value) : StateM σ (Except ε α))
        | .error failure => handler failure) state := rfl
  rw [same]
  unfold StateT.bind
  show (match (command state).1 with
    | .ok value => (pure (.ok value) : StateM σ (Except ε α))
    | .error failure => handler failure) (command state).2 = _
  cases (command state).1 with
  | ok value => rfl
  | error failure => rfl

end Command

/-- From every state in `before` the command succeeds with `value`, in a state of `after`. -/
def Returns (before : σ → Prop) (command : Command ε σ α) (value : α) (after : σ → Prop) : Prop :=
  ∀ state, before state → (command state).1 = .ok value ∧ after (command state).2

namespace Returns

variable {before middle after : σ → Prop} {command : Command ε σ α} {value : α} {result : β}

theorem pure (before : σ → Prop) (value : α) :
    Returns before (Pure.pure value : Command ε σ α) value before :=
  fun _ holds => ⟨rfl, holds⟩

theorem bind {next : α → Command ε σ β} (first : Returns before command value middle)
    (second : Returns middle (next value) result after) :
    Returns before (command >>= next) result after := by
  intro state holds
  have returned := first state holds
  rw [Command.bind_apply, returned.1]
  exact second _ returned.2

theorem weaken {required : σ → Prop} {ensured : σ → Prop}
    (valid : Returns required command value ensured)
    (implied : ∀ state, before state → required state)
    (implies : ∀ state, ensured state → after state) : Returns before command value after := by
  intro state holds
  have returned := valid state (implied state holds)
  exact ⟨returned.1, implies _ returned.2⟩

theorem modify {change : σ → σ} (changed : ∀ state, before state → after (change state)) :
    Returns before (modify change : Command ε σ Unit) () after :=
  fun state holds => ⟨rfl, changed state holds⟩

theorem dropResult (valid : Returns before command value after) :
    Returns before (dropResult command) () after :=
  fun state holds => ⟨rfl, (valid state holds).2⟩

theorem discard (valid : Returns before command value after) :
    Returns before (discard command) () after :=
  valid.bind (.pure after ())

theorem onPart {read : τ → σ} {write : τ → σ → τ} {wholeBefore wholeAfter : τ → Prop}
    (valid : Returns before command value after)
    (reads : ∀ whole, wholeBefore whole → before (read whole))
    (writes : ∀ whole part, wholeBefore whole → after part → wholeAfter (write whole part)) :
    Returns wholeBefore (onPart read write command) value wholeAfter := by
  intro whole holds
  have returned := valid (read whole) (reads whole holds)
  exact ⟨returned.1, writes whole _ holds returned.2⟩

end Returns

def Fails (before : σ → Prop) (command : Command ε σ α) (failure : ε) (after : σ → Prop) : Prop :=
  ∀ state, before state → (command state).1 = .error failure ∧ after (command state).2

namespace Fails

variable {before middle after : σ → Prop} {command : Command ε σ α} {value : α} {failure : ε}

theorem throw (before : σ → Prop) (failure : ε) :
    Fails before (MonadExcept.throw failure : Command ε σ α) failure before :=
  fun _ holds => ⟨rfl, holds⟩

theorem bind (first : Fails before command failure after) (next : α → Command ε σ β) :
    Fails before (command >>= next) failure after := by
  intro state holds
  have failed := first state holds
  rw [Command.bind_apply, failed.1]
  exact ⟨rfl, failed.2⟩

theorem second {next : α → Command ε σ β} (first : Returns before command value middle)
    (second : Fails middle (next value) failure after) : Fails before (command >>= next) failure after := by
  intro state holds
  have returned := first state holds
  rw [Command.bind_apply, returned.1]
  exact second _ returned.2

theorem onPart {read : τ → σ} {write : τ → σ → τ} {wholeBefore wholeAfter : τ → Prop}
    (valid : Fails before command failure after) (reads : ∀ whole, wholeBefore whole → before (read whole))
    (writes : ∀ whole part, wholeBefore whole → after part → wholeAfter (write whole part)) :
    Fails wholeBefore (onPart read write command) failure wholeAfter := by
  intro whole holds
  have failed := valid (read whole) (reads whole holds)
  exact ⟨failed.1, writes whole _ holds failed.2⟩

end Fails

def EndsWith (before : σ → Prop) (command : Command ε σ α) (outcome : Except ε α) (after : σ → Prop) : Prop :=
  ∀ state, before state → (command state).1 = outcome ∧ after (command state).2

/-- From every state in `before` the command gives a value in a state that `after` allows for it, or
stops with one of the allowed failures. -/
def Yields (allowed : ε → Prop) (before : σ → Prop) (command : Command ε σ α) (after : α → σ → Prop) : Prop :=
  ∀ state, before state →
    match (command state).1 with
    | .ok value => after value (command state).2
    | .error failure => allowed failure

namespace Yields

variable {allowed : ε → Prop} {before before' : σ → Prop} {command : Command ε σ α} {after after' : α → σ → Prop}
  {result : β → σ → Prop}

theorem pure {value : α} (holds : ∀ state, before state → after value state) :
    Yields allowed before (Pure.pure value : Command ε σ α) after := holds

theorem throw {failure : ε} (holds : allowed failure) :
    Yields allowed before (MonadExcept.throw failure : Command ε σ α) after := fun _ _ => holds

theorem modify {change : σ → σ} {after : Unit → σ → Prop} (changed : ∀ state, before state → after () (change state)) :
    Yields allowed before (modify change : Command ε σ Unit) after := changed

theorem bind {next : α → Command ε σ β} (first : Yields allowed before command after)
    (second : ∀ value, Yields allowed (after value) (next value) result) :
    Yields allowed before (command >>= next) result := by
  intro state holds
  have ran := first state holds
  rw [Command.bind_apply]
  cases outcome : (command state).1 with
  | error failure =>
    rw [outcome] at ran
    exact ran
  | ok value =>
    rw [outcome] at ran
    exact second value _ ran

theorem discard (valid : Yields allowed before command after) {last : Unit → σ → Prop}
    (implies : ∀ value state, after value state → last () state) : Yields allowed before (discard command) last :=
  valid.bind fun value => pure fun state => implies value state

theorem weaken (valid : Yields allowed before command after) (implied : ∀ state, before' state → before state)
    (implies : ∀ value state, after value state → after' value state) : Yields allowed before' command after' := by
  intro state holds
  have ran := valid state (implied state holds)
  cases outcome : (command state).1 with
  | error failure =>
    rw [outcome] at ran
    exact ran
  | ok value =>
    rw [outcome] at ran
    exact implies value _ ran

theorem ite {condition : Prop} [Decidable condition] {other : Command ε σ α}
    (first : condition → Yields allowed before command after)
    (second : ¬ condition → Yields allowed before other after) :
    Yields allowed before (if condition then command else other) after := by
  split
  · exact first ‹_›
  · exact second ‹_›

theorem ite_bind {condition : Prop} [Decidable condition] {other : Command ε σ α} {next : α → Command ε σ β}
    (either : Yields allowed before (if condition then command else other) after)
    (second : ∀ value, Yields allowed (after value) (next value) result) :
    Yields allowed before (if condition then command >>= next else other >>= next) result := by
  by_cases holds : condition
  · rw [if_pos holds] at either ⊢
    exact either.bind second
  · rw [if_neg holds] at either ⊢
    exact either.bind second

theorem optional_bind {condition : Prop} [Decidable condition] {step : Command ε σ Unit}
    {next : Unit → Command ε σ β} {middle : σ → Prop}
    (taken : condition → Yields allowed before step fun _ => middle)
    (left : ¬ condition → ∀ state, before state → middle state)
    (second : Yields allowed middle (next ()) result) :
    Yields allowed before (if condition then step >>= next else next ()) result := by
  split
  next holds => exact (taken holds).bind fun _ => second
  next fails => exact second.weaken (left fails) fun _ _ last => last

end Yields

def Approximates (limit : ε) (command finer : Command ε σ α) : Prop :=
  ∀ state, (command state).1 = .error limit ∨ command state = finer state

namespace Approximates

variable {limit : ε} {command finer : Command ε σ α}

theorem refl (command : Command ε σ α) : Approximates limit command command := fun _ => .inr rfl

theorem throw (finer : Command ε σ α) : Approximates limit (MonadExcept.throw limit) finer := fun _ => .inl rfl

theorem bind {next finerNext : α → Command ε σ β} (first : Approximates limit command finer)
    (second : ∀ value, Approximates limit (next value) (finerNext value)) :
    Approximates limit (command >>= next) (finer >>= finerNext) := by
  intro state
  rw [Command.bind_apply, Command.bind_apply]
  rcases first state with stops | same
  · rw [stops]
    exact .inl rfl
  · rw [← same]
    cases outcome : (command state).1 with
    | error failure => exact .inr rfl
    | ok value => exact second value _

theorem discard (first : Approximates limit command finer) : Approximates limit (discard command) (discard finer) :=
  first.bind fun _ => refl _

theorem ite {condition : Prop} [Decidable condition] {other finerOther : Command ε σ α}
    (first : Approximates limit command finer) (second : Approximates limit other finerOther) :
    Approximates limit (if condition then command else other) (if condition then finer else finerOther) := by
  split
  · exact first
  · exact second

theorem ite_bind {condition : Prop} [Decidable condition] {other finerOther : Command ε σ α}
    {next finerNext : α → Command ε σ β}
    (either : Approximates limit (if condition then command else other) (if condition then finer else finerOther))
    (second : ∀ value, Approximates limit (next value) (finerNext value)) :
    Approximates limit (if condition then command >>= next else other >>= next)
      (if condition then finer >>= finerNext else finerOther >>= finerNext) := by
  by_cases holds : condition
  · rw [if_pos holds] at either ⊢
    rw [if_pos holds] at either ⊢
    exact either.bind second
  · rw [if_neg holds] at either ⊢
    rw [if_neg holds] at either ⊢
    exact either.bind second

end Approximates

end Cpptrace.Library
