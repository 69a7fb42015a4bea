import Mathlib.Data.List.Forall2

/-! Components that are driven by operations, and rules about whole runs.

A step takes an operation and a state to an answer and the next state. What every
step preserves holds along a run, and a step by step simulation carries over to
the answers of a run.
-/

set_option autoImplicit false

namespace Cpptrace.Library

variable {Op State Answer : Type}

def run (step : Op → State → Answer × State) : List Op → State → List Answer × State
  | [], state => ([], state)
  | op :: rest, state =>
      ((step op state).1 :: (run step rest (step op state).2).1, (run step rest (step op state).2).2)

section Invariants

variable {step : Op → State → Answer × State} {Invariant : State → Prop}

/-- What every step of an allowed operation from an invariant state answers, every step of a run answers. -/
theorem run_answers_of (Allowed : Op → Prop) {Expected : Op → Answer → Prop}
    (steps : ∀ op state, Allowed op → Invariant state → Expected op (step op state).1 ∧ Invariant (step op state).2)
    (ops : List Op) (allowed : ∀ op ∈ ops, Allowed op) (state : State) (holds : Invariant state) :
    List.Forall₂ Expected ops (run step ops state).1 := by
  induction ops generalizing state with
  | nil => exact .nil
  | cons op rest ih =>
    have first := steps op state (allowed op List.mem_cons_self) holds
    exact .cons first.1 (ih (fun other member => allowed other (List.mem_cons_of_mem op member)) _ first.2)

theorem run_answers {Expected : Op → Answer → Prop}
    (steps : ∀ op state, Invariant state → Expected op (step op state).1 ∧ Invariant (step op state).2)
    (ops : List Op) (state : State) (holds : Invariant state) :
    List.Forall₂ Expected ops (run step ops state).1 :=
  run_answers_of (fun _ => True) (fun op state _ => steps op state) ops (fun _ _ => trivial) state holds

/-- Two machines that step from one state to one state give related answers along a run. -/
theorem run_related {Answer' : Type} {step' : Op → State → Answer' × State} {Related : Answer → Answer' → Prop}
    (Allowed : Op → Prop)
    (steps : ∀ op state, Allowed op → Invariant state →
      Related (step op state).1 (step' op state).1 ∧ (step op state).2 = (step' op state).2 ∧
        Invariant (step op state).2)
    (ops : List Op) (allowed : ∀ op ∈ ops, Allowed op) (state : State) (holds : Invariant state) :
    List.Forall₂ Related (run step ops state).1 (run step' ops state).1 := by
  induction ops generalizing state with
  | nil => exact .nil
  | cons op rest ih =>
    obtain ⟨first, same, next⟩ := steps op state (allowed op List.mem_cons_self) holds
    have others := ih (fun other member => allowed other (List.mem_cons_of_mem op member)) _ next
    rw [run, run, ← same]
    exact .cons first others

end Invariants

/-- A property of every operation of a run, in the state it is applied to. -/
def EveryStep (step : Op → State → Answer × State) (property : Op → State → Prop) : List Op → State → Prop
  | [], _ => True
  | op :: rest, state => property op state ∧ EveryStep step property rest (step op state).2

theorem everyStep_of_forall {step : Op → State → Answer × State} {property : Op → Prop} (ops : List Op) (state : State)
    (every : ∀ op ∈ ops, property op) : EveryStep step (fun op _ => property op) ops state := by
  induction ops generalizing state with
  | nil => trivial
  | cons op rest ih =>
    exact ⟨every op List.mem_cons_self, ih _ fun other member => every other (List.mem_cons_of_mem op member)⟩

theorem everyStep_congr {step : Op → State → Answer × State} {Invariant : State → Prop}
    {property property' : Op → State → Prop}
    (same : ∀ op state, Invariant state → (property op state ↔ property' op state))
    (preserved : ∀ op state, Invariant state → Invariant (step op state).2)
    (ops : List Op) (state : State) (holds : Invariant state) :
    EveryStep step property ops state ↔ EveryStep step property' ops state := by
  induction ops generalizing state with
  | nil => exact Iff.rfl
  | cons op rest ih => exact and_congr (same op state holds) (ih _ (preserved op state holds))

theorem run_refines {Spec : Type} {step : Op → State → Answer × State} {spec : Op → Spec → Answer × Spec}
    {Related : State → Spec → Prop}
    (simulates : ∀ op state abstract, Related state abstract →
      (step op state).1 = (spec op abstract).1 ∧ Related (step op state).2 (spec op abstract).2)
    (ops : List Op) (state : State) (abstract : Spec) (related : Related state abstract) :
    (run step ops state).1 = (run spec ops abstract).1 ∧
      Related (run step ops state).2 (run spec ops abstract).2 := by
  induction ops generalizing state abstract with
  | nil => exact ⟨rfl, related⟩
  | cons op rest ih =>
    obtain ⟨same, next⟩ := simulates op state abstract related
    obtain ⟨answers, last⟩ := ih _ _ next
    exact ⟨by rw [run, run, same, answers], last⟩

section Breaking

variable {Spec : Type} {step : Op → State → Answer × State} {spec : Op → Spec → Answer × Spec}
  {Related : State → Spec → Prop} {Good : Op → Spec → Prop} {Bad : Answer → Prop} {Broken Ends : State → Prop}

theorem run_shows (stays : ∀ op state, Broken state → Bad (step op state).1 ∨ Broken (step op state).2)
    (fails : ∀ state, Broken state → ¬ Ends state) (ops : List Op) (state : State) (broken : Broken state) :
    ¬ ((∀ answer ∈ (run step ops state).1, ¬ Bad answer) ∧ Ends (run step ops state).2) := by
  induction ops generalizing state with
  | nil => exact fun safe => fails state broken safe.2
  | cons op rest ih =>
    rintro ⟨clean, ends⟩
    rcases stays op state broken with bad | next
    · exact clean _ List.mem_cons_self bad
    · exact ih _ next ⟨fun answer member => clean answer (List.mem_cons_of_mem _ member), ends⟩

/-- A run is clean to its end exactly if each of its operations is good where it is applied. -/
theorem run_clean_iff
    (simulates : ∀ op state abstract, Related state abstract → Good op abstract →
      ¬ Bad (step op state).1 ∧ Related (step op state).2 (spec op abstract).2)
    (breaks : ∀ op state abstract, Related state abstract → ¬ Good op abstract → Broken (step op state).2)
    (stays : ∀ op state, Broken state → Bad (step op state).1 ∨ Broken (step op state).2)
    (ends : ∀ state abstract, Related state abstract → Ends state) (fails : ∀ state, Broken state → ¬ Ends state)
    (ops : List Op) (state : State) (abstract : Spec) (related : Related state abstract) :
    ((∀ answer ∈ (run step ops state).1, ¬ Bad answer) ∧ Ends (run step ops state).2) ↔
      EveryStep spec Good ops abstract := by
  induction ops generalizing state abstract with
  | nil => exact ⟨fun _ => trivial, fun _ => ⟨nofun, ends state abstract related⟩⟩
  | cons op rest ih =>
    by_cases good : Good op abstract
    · obtain ⟨clean, next⟩ := simulates op state abstract related good
      rw [EveryStep, run, List.forall_mem_cons, and_assoc, ih _ _ next]
      exact and_congr (iff_of_true clean good) Iff.rfl
    · refine iff_of_false (fun safe => ?_) fun every => good every.1
      exact run_shows stays fails rest _ (breaks op state abstract related good)
        ⟨fun answer member => safe.1 answer (List.mem_cons_of_mem _ member), safe.2⟩

/-- As long as every operation is good where it is applied, a simulation goes on. -/
theorem run_refines_while
    (simulates : ∀ op state abstract, Related state abstract → Good op abstract →
      (step op state).1 = (spec op abstract).1 ∧ Related (step op state).2 (spec op abstract).2)
    (ops : List Op) (state : State) (abstract : Spec) (related : Related state abstract)
    (every : EveryStep spec Good ops abstract) :
    (run step ops state).1 = (run spec ops abstract).1 ∧ Related (run step ops state).2 (run spec ops abstract).2 := by
  induction ops generalizing state abstract with
  | nil => exact ⟨rfl, related⟩
  | cons op rest ih =>
    obtain ⟨same, next⟩ := simulates op state abstract related every.1
    obtain ⟨answers, last⟩ := ih _ _ next every.2
    exact ⟨by rw [run, run, same, answers], last⟩

end Breaking

end Cpptrace.Library
