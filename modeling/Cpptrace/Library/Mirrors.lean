import Cpptrace.Library.Memo

/-! Two commands that go the same way.

Their values are related and their failures similar: a failure may carry a text that
says where it was met. A mirrored command leaves the same state behind, also where
it fails, so that a caller that drops the failure goes on from there.
-/

set_option autoImplicit false

namespace Cpptrace.Library

variable {ε σ τ α β α' β' : Type}

namespace Outcome

/-- Two values that are related, or two failures that are similar. -/
inductive Agreeing (similar : ε → ε → Prop) (related : α → β → Prop) : Except ε α → Except ε β → Prop where
  | ok {value : α} {other : β} (same : related value other) : Agreeing similar related (.ok value) (.ok other)
  | error {failure other : ε} (same : similar failure other) : Agreeing similar related (.error failure) (.error other)

namespace Agreeing

variable {similar : ε → ε → Prop} {related : α → β → Prop}

theorem ok_iff {value : α} {other : β} :
    Agreeing similar related (.ok value : Except ε α) (.ok other) ↔ related value other :=
  ⟨fun | .ok same => same, .ok⟩

theorem refl (reflexive : ∀ failure, similar failure failure) (outcome : Except ε α) :
    Agreeing similar Eq outcome outcome := by
  cases outcome with
  | ok value => exact .ok rfl
  | error failure => exact .error (reflexive failure)

theorem bind {first : Except ε α} {second : Except ε β} {next : α → Except ε α'} {next' : β → Except ε β'}
    {result : α' → β' → Prop} (alike : Agreeing similar related first second)
    (later : ∀ value other, first = .ok value → related value other →
      Agreeing similar result (next value) (next' other)) :
    Agreeing similar result (first >>= next) (second >>= next') := by
  cases alike with
  | ok same => exact later _ _ rfl same
  | error same => exact .error same

theorem bind_eq {first second : Except ε α} {next next' : α → Except ε β} (alike : Agreeing similar Eq first second)
    (later : ∀ value, first = .ok value → Agreeing similar Eq (next value) (next' value)) :
    Agreeing similar Eq (first >>= next) (second >>= next') :=
  alike.bind fun value _ known same => same ▸ later value known

theorem mapM {action action' : α → Except ε β} (each : ∀ value, Agreeing similar Eq (action value) (action' value))
    (values : List α) : Agreeing similar Eq (values.mapM action) (values.mapM action') := by
  induction values with
  | nil => exact .ok rfl
  | cons value rest ih =>
    rw [List.mapM_cons, List.mapM_cons]
    exact (each value).bind_eq fun _ _ => ih.bind_eq fun _ _ => .ok rfl

end Agreeing

end Outcome

open Outcome

/-- From every sound state the commands end alike and in the same state, which is sound again whatever
comes out, and only such values do. -/
def Mirrors (similar : ε → ε → Prop) (sound : σ → Prop) (command other : Command ε σ α) (gives : α → Prop) : Prop :=
  ∀ state, sound state →
    Agreeing similar Eq (command state).1 (other state).1 ∧ (command state).2 = (other state).2 ∧
      sound (command state).2 ∧ ∀ value, (command state).1 = .ok value → gives value

namespace Mirrors

variable {similar : ε → ε → Prop} {sound : σ → Prop} {command other : Command ε σ α} {gives : α → Prop}

theorem pure {value : α} (holds : gives value) : Mirrors similar sound (Pure.pure value) (Pure.pure value) gives :=
  fun _ isSound => ⟨.ok rfl, rfl, isSound, fun _ same => Except.ok.inj same ▸ holds⟩

theorem throw {failure failure' : ε} (same : similar failure failure') :
    Mirrors similar sound (MonadExcept.throw failure : Command ε σ α) (MonadExcept.throw failure') gives :=
  fun _ isSound => ⟨.error same, rfl, isSound, nofun⟩

theorem modify {change : σ → σ} (keeps : ∀ state, sound state → sound (change state)) :
    Mirrors similar sound (modify change : Command ε σ Unit) (modify change) fun _ => True :=
  fun state isSound => ⟨.ok rfl, rfl, keeps state isSound, fun _ _ => trivial⟩

theorem ofExcept {first second : Except ε α} (alike : Agreeing similar Eq first second) :
    Mirrors similar sound (MonadExcept.ofExcept first : Command ε σ α) (MonadExcept.ofExcept second)
      fun value => first = .ok value := by
  intro state isSound
  rw [Command.ofExcept_apply, Command.ofExcept_apply]
  exact ⟨alike, rfl, isSound, fun _ known => known⟩

theorem bind {next next' : α → Command ε σ β} {result : β → Prop} (first : Mirrors similar sound command other gives)
    (second : ∀ value, gives value → Mirrors similar sound (next value) (next' value) result) :
    Mirrors similar sound (command >>= next) (other >>= next') result := by
  intro state isSound
  obtain ⟨alike, same, stays, only⟩ := first state isSound
  rw [Command.bind_apply, Command.bind_apply, ← same]
  generalize (other state).1 = outcome at alike
  cases known : (command state).1 with
  | ok value =>
    rw [known] at alike
    cases alike with
    | ok equal =>
      subst equal
      exact second value (only value known) _ stays
  | error failure =>
    rw [known] at alike
    cases alike with
    | error close => exact ⟨.error close, rfl, stays, nofun⟩

theorem get_bind {next next' : σ → Command ε σ α}
    (second : ∀ state, Mirrors similar sound (next state) (next' state) gives) :
    Mirrors similar sound (get >>= next) (get >>= next') gives := by
  intro state isSound
  rw [Command.bind_apply, Command.bind_apply, Command.get_apply]
  exact second state state isSound

theorem ite {condition : Prop} [Decidable condition] {command' other' : Command ε σ α}
    (first : condition → Mirrors similar sound command other gives)
    (second : ¬ condition → Mirrors similar sound command' other' gives) :
    Mirrors similar sound (if condition then command else command') (if condition then other else other') gives := by
  split
  · exact first ‹_›
  · exact second ‹_›

theorem weaken {result : α → Prop} (valid : Mirrors similar sound command other gives)
    (implies : ∀ value, gives value → result value) : Mirrors similar sound command other result := by
  intro state isSound
  obtain ⟨alike, same, stays, only⟩ := valid state isSound
  exact ⟨alike, same, stays, fun value known => implies value (only value known)⟩

theorem map {result : β → Prop} (valid : Mirrors similar sound command other gives) (change : α → β)
    (holds : ∀ value, gives value → result (change value)) :
    Mirrors similar sound (change <$> command) (change <$> other) result := by
  have mapped : Mirrors similar sound (command >>= fun value => Pure.pure (change value))
      (other >>= fun value => Pure.pure (change value)) result := valid.bind fun value given =>
        .pure (holds value given)
  intro state isSound
  have ran := mapped state isSound
  rw [Command.bind_apply, Command.bind_apply] at ran
  rw [Command.map_apply, Command.map_apply]
  exact ran

theorem of_stays {weaker : σ → Prop} {anything : α → Prop} {allowed : ε → Prop}
    (valid : Mirrors similar weaker command other anything)
    (implied : ∀ state, sound state → weaker state) (stays : Stays sound allowed command gives) :
    Mirrors similar sound command other gives := by
  intro state isSound
  obtain ⟨alike, same, -, -⟩ := valid state (implied state isSound)
  obtain ⟨soundAfter, outcome⟩ := stays state isSound
  refine ⟨alike, same, soundAfter, fun value known => ?_⟩
  rw [known] at outcome
  exact outcome

theorem onPart {read : τ → σ} {write : τ → σ → τ} {whole : τ → Prop} (valid : Mirrors similar sound command other gives)
    (reads : ∀ state, whole state → sound (read state))
    (writes : ∀ state part, whole state → sound part → whole (write state part)) :
    Mirrors similar whole (onPart read write command) (onPart read write other) gives := by
  intro state holds
  obtain ⟨alike, same, stays, only⟩ := valid (read state) (reads state holds)
  exact ⟨alike, congrArg (write state) same, writes state _ holds stays, only⟩

end Mirrors

end Cpptrace.Library
