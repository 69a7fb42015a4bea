import Cpptrace.Library.Command
import Mathlib.Data.List.Forall2
import Mathlib.Order.WellFoundedSet

/-! Computations that come to an end.

One that is given fuel settles if from some fuel on its outcome is one and the same,
and is not the failure that says the fuel ran out. One that follows a relation into a
finite set ends exactly if no cycle can be reached.
-/

set_option autoImplicit false

namespace Cpptrace.Library

section Fuel

variable {ε α β : Type} {limit : ε}

/-- With enough fuel the outcome is the same, and not that the fuel ran out. -/
def Settles (limit : ε) (outcome : Nat → Except ε α) : Prop :=
  ∃ final, final ≠ .error limit ∧ ∃ enough, ∀ fuel ≥ enough, outcome fuel = final

namespace Settles

theorem const {final : Except ε α} (ends : final ≠ .error limit) : Settles limit fun _ => final :=
  ⟨final, ends, 0, fun _ _ => rfl⟩

theorem pure (value : α) : Settles limit fun _ => (Pure.pure value : Except ε α) := .const nofun

theorem bind {outcome : Nat → Except ε α} {next : α → Nat → Except ε β} (first : Settles limit outcome)
    (second : ∀ value, Settles limit (next value)) :
      Settles limit fun fuel => outcome fuel >>= fun value => next value fuel := by
  obtain ⟨final, ends, enough, same⟩ := first
  cases final with
  | error failure =>
    refine ⟨.error failure, fun limited => ends (congrArg Except.error (Except.error.inj limited)), enough,
      fun fuel most => ?_⟩
    dsimp only
    rw [same fuel most]
    rfl
  | ok value =>
    obtain ⟨final, ends', enough', same'⟩ := second value
    refine ⟨final, ends', max enough enough', fun fuel most => ?_⟩
    dsimp only
    rw [same fuel (Nat.le_trans (Nat.le_max_left ..) most)]
    exact same' fuel (Nat.le_trans (Nat.le_max_right ..) most)

theorem succ_iff {outcome : Nat → Except ε α} :
    Settles limit (fun fuel => outcome (fuel + 1)) ↔ Settles limit outcome := by
  constructor
  · rintro ⟨final, ends, enough, same⟩
    refine ⟨final, ends, enough + 1, fun fuel most => ?_⟩
    obtain ⟨left, rfl⟩ := Nat.exists_eq_add_of_le' (Nat.le_of_add_left_le most)
    exact same left (Nat.le_of_succ_le_succ most)
  · rintro ⟨final, ends, enough, same⟩
    exact ⟨final, ends, enough, fun fuel most => same (fuel + 1) (Nat.le_succ_of_le most)⟩

theorem exists_ne {outcome : Nat → Except ε α} (settles : Settles limit outcome) :
    ∃ fuel, outcome fuel ≠ .error limit := by
  obtain ⟨final, ends, enough, same⟩ := settles
  exact ⟨enough, same enough (Nat.le_refl _) ▸ ends⟩

end Settles

def EndsIn (outcome : Nat → α) (final : α) : Prop := ∃ enough, ∀ fuel ≥ enough, outcome fuel = final

namespace EndsIn

theorem const (final : α) : EndsIn (fun _ => final) final := ⟨0, fun _ _ => rfl⟩

theorem bind {outcome : Nat → Option α} {next : α → Nat → Option β} {value : α} {final : Option β}
    (first : EndsIn outcome (some value)) (second : EndsIn (next value) final) :
    EndsIn (fun fuel => outcome fuel >>= fun value => next value fuel) final := by
  obtain ⟨enough, same⟩ := first
  obtain ⟨enough', same'⟩ := second
  refine ⟨max enough enough', fun fuel most => ?_⟩
  dsimp only
  rw [same fuel (Nat.le_trans (Nat.le_max_left ..) most)]
  exact same' fuel (Nat.le_trans (Nat.le_max_right ..) most)

theorem succ {outcome : Nat → α} {final : α} (ends : EndsIn (fun fuel => outcome (fuel + 1)) final) :
    EndsIn outcome final := by
  obtain ⟨enough, same⟩ := ends
  refine ⟨enough + 1, fun fuel most => ?_⟩
  obtain ⟨left, rfl⟩ := Nat.exists_eq_add_of_le' (Nat.le_of_add_left_le most)
  exact same left (Nat.le_of_succ_le_succ most)

theorem bind_ok {outcome : Nat → Except ε α} {next : α → Nat → Except ε β} {value : α} {final : Except ε β}
    (first : EndsIn outcome (.ok value)) (second : EndsIn (next value) final) :
    EndsIn (fun fuel => outcome fuel >>= fun value => next value fuel) final := by
  obtain ⟨enough, same⟩ := first
  obtain ⟨enough', same'⟩ := second
  refine ⟨max enough enough', fun fuel most => ?_⟩
  dsimp only
  rw [same fuel (Nat.le_trans (Nat.le_max_left ..) most)]
  exact same' fuel (Nat.le_trans (Nat.le_max_right ..) most)

end EndsIn

end Fuel

section Chasing

open Relation

variable {α : Type} {step : α → α → Prop} {start : α}

/-- No element that the steps from the start come to is reached from itself. -/
def Acyclic (step : α → α → Prop) (start : α) : Prop :=
  ∀ reached, ReflTransGen step start reached → ¬ TransGen step reached reached

theorem acyclic_of_acc (ends : Acc (flip step) start) : Acyclic step start := by
  induction ends with
  | intro start _ ih =>
    intro reached path cycle
    rcases path.cases_head with rfl | ⟨next, first, rest⟩
    · obtain ⟨next, first, back⟩ := TransGen.head'_iff.mp cycle
      exact ih next first start back cycle
    · exact ih next first reached rest cycle

/-- `a` comes behind `b` on the way from the start. -/
def Behind (step : α → α → Prop) (start a b : α) : Prop :=
  ReflTransGen step start b ∧ TransGen step b a

theorem Acyclic.behind_strict (acyclic : Acyclic step start) :
    IsStrictOrder α (Behind step start) where
  irrefl a loop := acyclic a loop.1 loop.2
  trans _ _ _ first second := ⟨second.1, second.2.trans first.2⟩

theorem acc_of_acyclic {inside : Set α} (finite : inside.Finite)
    (stays : ∀ a b, step a b → b ∈ inside) (acyclic : Acyclic step start) :
    Acc (flip step) start := by
  have strict := acyclic.behind_strict
  have wellFounded : (insert start inside).WellFoundedOn (Behind step start) :=
    (finite.insert start).wellFoundedOn
  refine wellFounded.induction (P := fun a => ReflTransGen step start a → Acc (flip step) a)
    (Set.mem_insert _ _) (fun a _ ih path => ⟨_, fun next one => ?_⟩) .refl
  exact ih next (.inr (stays a next one)) ⟨path, .single one⟩ (path.tail one)

/-- Steps into a finite set end exactly if no cycle can be reached. -/
theorem acc_iff_acyclic {inside : Set α} (finite : inside.Finite)
    (stays : ∀ a b, step a b → b ∈ inside) : Acc (flip step) start ↔ Acyclic step start :=
  ⟨acyclic_of_acc, acc_of_acyclic finite stays⟩

end Chasing

end Cpptrace.Library
