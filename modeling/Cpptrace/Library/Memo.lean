import Cpptrace.Library.Command

/-! Commands that keep the outcome of a fixed computation in their state.

A failure is kept too, but what is given later is only a report of it. `kept`
says which failures may be kept and `reports` what a report is; a state is sound
for a computation as long as it has kept no other failure.
-/

set_option autoImplicit false

namespace Cpptrace.Library

variable {ε σ τ α β : Type} {kept reports : ε → Prop}

def Agrees (kept reports : ε → Prop) (fresh outcome : Except ε α) : Prop :=
  outcome = fresh ∨
    ∃ failure report, fresh = .error failure ∧ kept failure ∧ outcome = .error report ∧ reports report

/-- From that state the command agrees with the computation, and a failure that may be kept leaves the
state sound. -/
def FollowsFrom (kept reports : ε → Prop) (sound : σ → Prop) (command : Command ε σ α) (fresh : Except ε α)
    (state : σ) : Prop :=
  Agrees kept reports fresh (command state).1 ∧
    ((∀ failure, (command state).1 = .error failure → kept failure) → sound (command state).2)

def Follows (kept reports : ε → Prop) (sound : σ → Prop) (command : Command ε σ α) (fresh : Except ε α) : Prop :=
  ∀ state, sound state → FollowsFrom kept reports sound command fresh state

theorem FollowsFrom.congr {sound : σ → Prop} {command : Command ε σ α} (other : Command ε σ α) {fresh : Except ε α}
    {state : σ} (same : command state = other state) (follows : FollowsFrom kept reports sound other fresh state) :
    FollowsFrom kept reports sound command fresh state := by
  unfold FollowsFrom
  rw [same]
  exact follows

namespace Agrees

variable {fresh outcome : Except ε α}

theorem refl (fresh : Except ε α) : Agrees kept reports fresh fresh := .inl rfl

theorem ok {value : α} (agrees : Agrees kept reports fresh (.ok value)) : fresh = .ok value := by
  rcases agrees with same | ⟨_, _, _, _, failed, _⟩
  · exact same.symm
  · cases failed

theorem error {failure : ε} (agrees : Agrees kept reports fresh (.error failure)) (allowed : kept failure) :
    ∃ first, fresh = .error first ∧ kept first := by
  rcases agrees with same | ⟨first, _, failed, firstKept, _⟩
  · exact ⟨failure, same.symm, allowed⟩
  · exact ⟨first, failed, firstKept⟩

theorem of_not_report {failure : ε} (agrees : Agrees kept reports fresh (.error failure)) (not : ¬ reports failure) :
    fresh = .error failure := by
  rcases agrees with same | ⟨_, _, _, _, reported, isReport⟩
  · exact same.symm
  · cases reported
    exact absurd isReport not

theorem bind_error {failure : ε} {next : α → Except ε β} (agrees : Agrees kept reports fresh (.error failure)) :
    Agrees kept reports (fresh >>= next) (.error failure) := by
  rcases agrees with same | ⟨first, report, failed, firstKept, reported, isReport⟩
  · rw [← same]
    exact .inl rfl
  · rw [failed]
    cases reported
    exact .inr ⟨first, failure, rfl, firstKept, rfl, isReport⟩

end Agrees

namespace Follows

variable {sound : σ → Prop} {command : Command ε σ α} {fresh : Except ε α}

theorem pure (value : α) : Follows kept reports sound (Pure.pure value) (Pure.pure value) :=
  fun _ holds => ⟨.refl _, fun _ => holds⟩

theorem ofExcept (fresh : Except ε α) : Follows kept reports sound (MonadExcept.ofExcept fresh) fresh := by
  intro state holds
  unfold FollowsFrom
  rw [Command.ofExcept_apply]
  exact ⟨.refl fresh, fun _ => holds⟩

theorem bind {next : α → Command ε σ β} {freshNext : α → Except ε β} (first : Follows kept reports sound command fresh)
    (second : ∀ value, fresh = .ok value → Follows kept reports sound (next value) (freshNext value)) :
    Follows kept reports sound (command >>= next) (fresh >>= freshNext) := by
  intro state holds
  obtain ⟨agrees, keeps⟩ := first state holds
  unfold FollowsFrom
  rw [Command.bind_apply]
  cases outcome : (command state).1 with
  | error failure =>
    rw [outcome] at agrees keeps
    refine ⟨agrees.bind_error, fun allowed => keeps fun _ same => ?_⟩
    cases same
    exact allowed failure rfl
  | ok value =>
    rw [outcome] at agrees keeps
    have known := agrees.ok
    rw [known]
    exact second value known _ (keeps nofun)

theorem onPart {part : τ → Prop} {read : σ → τ} {write : σ → τ → σ} {command : Command ε τ α}
    (valid : Follows kept reports part command fresh) (reads : ∀ state, sound state → part (read state))
    (writes : ∀ state value, sound state → part value → sound (write state value)) :
    Follows kept reports sound (onPart read write command) fresh := by
  intro state holds
  obtain ⟨agrees, keeps⟩ := valid (read state) (reads state holds)
  exact ⟨agrees, fun allowed => writes state _ holds (keeps allowed)⟩

/-- A first try: mark it in the state, compute, and keep what came out. -/
theorem once {marked : σ → Prop} (mark : σ → σ) {body : Command ε σ α} (store : α → σ → σ)
    (valid : Follows kept reports marked body fresh)
    (stored : ∀ value state, fresh = .ok value → marked state → sound (store value state))
    (failed : ∀ failure state, fresh = .error failure → kept failure → marked state → sound state)
    {state : σ} (marks : marked (mark state)) :
    FollowsFrom kept reports sound
      (do modify mark; let value ← body; modify (store value); return value) fresh state := by
  obtain ⟨agrees, keeps⟩ := valid (mark state) marks
  unfold FollowsFrom
  rw [Command.bind_apply, Command.modify_apply]
  dsimp only
  rw [Command.bind_apply]
  cases outcome : (body (mark state)).1 with
  | error failure =>
    rw [outcome] at agrees keeps
    refine ⟨agrees, fun allowed => ?_⟩
    have mayKeep := allowed failure rfl
    obtain ⟨first, known, firstKept⟩ := agrees.error mayKeep
    exact failed first _ known firstKept (keeps fun _ same => Except.error.inj same ▸ mayKeep)
  | ok value =>
    rw [outcome] at agrees keeps
    exact ⟨agrees, fun _ => stored value _ agrees.ok (keeps nofun)⟩

end Follows

/-- A command that gives what a computation gives, a value or a failure, and leaves a sound state. -/
abbrev Computes (sound : σ → Prop) (command : Command ε σ α) (fresh : Except ε α) : Prop :=
  Follows (fun _ => True) (fun _ => False) sound command fresh

theorem computes_iff {sound : σ → Prop} {command : Command ε σ α} {fresh : Except ε α} :
    Computes sound command fresh ↔ ∀ state, sound state → (command state).1 = fresh ∧ sound (command state).2 := by
  refine forall_congr' fun state => imp_congr_right fun _ => and_congr ?_ ?_
  · exact ⟨fun agrees => agrees.elim id fun ⟨_, _, _, _, _, never⟩ => never.elim, .inl⟩
  · exact ⟨fun keeps => keeps fun _ _ => trivial, fun holds _ => holds⟩

section Stays

variable {sound : σ → Prop} {allowed : ε → Prop} {command : Command ε σ α} {gives : α → Prop}

/-- From a sound state to a sound state, whatever comes out, and only such values and failures do. -/
def Stays (sound : σ → Prop) (allowed : ε → Prop) (command : Command ε σ α) (gives : α → Prop) : Prop :=
  ∀ state, sound state → sound (command state).2 ∧
    match (command state).1 with
    | .ok value => gives value
    | .error failure => allowed failure

namespace Stays

theorem pure {value : α} (holds : gives value) : Stays sound allowed (Pure.pure value) gives :=
  fun _ isSound => ⟨isSound, holds⟩

theorem bind {next : α → Command ε σ β} {result : β → Prop} (first : Stays sound allowed command gives)
    (second : ∀ value, gives value → Stays sound allowed (next value) result) :
    Stays sound allowed (command >>= next) result := by
  intro state isSound
  obtain ⟨stays, outcome⟩ := first state isSound
  rw [Command.bind_apply]
  cases known : (command state).1 with
  | error failure =>
    rw [known] at outcome
    exact ⟨stays, outcome⟩
  | ok value =>
    rw [known] at outcome
    exact second value outcome _ stays

theorem ofExcept {outcome : Except ε α} (only : Outcome.FailsOnly allowed outcome) :
    Stays sound allowed (MonadExcept.ofExcept outcome) fun value => outcome = .ok value := by
  intro state isSound
  rw [Command.ofExcept_apply]
  cases outcome with
  | ok value => exact ⟨isSound, rfl⟩
  | error failure => exact ⟨isSound, only failure rfl⟩

theorem throw {failure : ε} (may : allowed failure) : Stays sound allowed (MonadExcept.throw failure) gives :=
  fun _ isSound => ⟨isSound, may⟩

theorem modify {change : σ → σ} {gives : Unit → Prop} (stays : ∀ state, sound state → sound (change state))
    (holds : gives ()) : Stays sound allowed (modify change) gives :=
  fun state isSound => ⟨stays state isSound, holds⟩

theorem ite {condition : Prop} [Decidable condition] {other : Command ε σ α} (first : Stays sound allowed command gives)
    (second : Stays sound allowed other gives) :
    Stays sound allowed (if condition then command else other) gives := by
  split
  · exact first
  · exact second

theorem tryCatch {handler : ε → Command ε σ α} (first : Stays sound (fun _ => True) command gives)
    (second : ∀ failure, Stays sound allowed (handler failure) gives) :
    Stays sound allowed (tryCatch command handler) gives := by
  intro state isSound
  obtain ⟨stays, outcome⟩ := first state isSound
  rw [Command.tryCatch_apply]
  cases known : (command state).1 with
  | error failure => exact second failure _ stays
  | ok value =>
    rw [known] at outcome
    exact ⟨stays, outcome⟩

theorem onPart {part : τ → Prop} {read : σ → τ} {write : σ → τ → σ} {command : Command ε τ α}
    (valid : Stays part allowed command gives) (reads : ∀ state, sound state → part (read state))
    (writes : ∀ state value, sound state → part value → sound (write state value)) :
    Stays sound allowed (onPart read write command) gives := by
  intro state isSound
  obtain ⟨stays, outcome⟩ := valid (read state) (reads state isSound)
  exact ⟨writes state _ isSound stays, outcome⟩

theorem weaken {result : α → Prop} (valid : Stays sound allowed command gives)
    (implies : ∀ value, gives value → result value) :
    Stays sound allowed command result := by
  intro state isSound
  obtain ⟨stays, outcome⟩ := valid state isSound
  refine ⟨stays, ?_⟩
  cases known : (command state).1 with
  | error failure =>
    rw [known] at outcome
    exact outcome
  | ok value =>
    rw [known] at outcome
    exact implies value outcome

end Stays

/-- If any failure may be kept, a command that follows a computation stays sound in any case. -/
theorem Follows.stays {fresh : Except ε α} (valid : Follows (fun _ => True) reports sound command fresh)
    (only : Outcome.FailsOnly allowed fresh) (reported : ∀ failure, reports failure → allowed failure) :
    Stays sound allowed command fun value => fresh = .ok value := by
  intro state isSound
  obtain ⟨agrees, keeps⟩ := valid state isSound
  refine ⟨keeps fun _ _ => trivial, ?_⟩
  cases outcome : (command state).1 with
  | ok value =>
    rw [outcome] at agrees
    exact agrees.ok
  | error failure =>
    rw [outcome] at agrees
    rcases agrees with same | ⟨_, report, _, _, same, isReport⟩
    · exact only failure same.symm
    · cases same
      exact reported _ isReport

end Stays

end Cpptrace.Library
