import Mathlib.Logic.Basic

/-! Brackets of one kind in a list.

A list is nested at a depth if it closes the brackets that are open in front of it
and all of its own, and none besides.
-/

set_option autoImplicit false

namespace Cpptrace.Library

variable {α : Type} [DecidableEq α] (opening closing : α)

def Nested : (depth : Nat) → List α → Prop
  | depth, [] => depth = 0
  | depth, c :: rest =>
    if c = opening then Nested (depth + 1) rest
    else if c = closing then 0 < depth ∧ Nested (depth - 1) rest
    else Nested depth rest

instance Nested.decidable (depth : Nat) (text : List α) : Decidable (Nested opening closing depth text) :=
  match text with
  | [] => inferInstanceAs (Decidable (depth = 0))
  | c :: rest =>
    have := Nested.decidable (depth + 1) rest
    have := Nested.decidable (depth - 1) rest
    have := Nested.decidable depth rest
    inferInstanceAs (Decidable (if c = opening then _ else if c = closing then _ else _))

def afterClosing : (count : Nat) → List α → List α
  | 0, text => text
  | _ + 1, [] => []
  | count + 1, c :: rest =>
    if c = opening then afterClosing (count + 2) rest
    else if c = closing then afterClosing count rest
    else afterClosing (count + 1) rest

namespace Nested

variable {opening closing} {depth : Nat} {text rest : List α}

theorem opening_iff : Nested opening closing depth (opening :: rest) ↔ Nested opening closing (depth + 1) rest := by
  rw [Nested, if_pos rfl]

theorem closing_iff (differ : opening ≠ closing) :
    Nested opening closing depth (closing :: rest) ↔ 0 < depth ∧ Nested opening closing (depth - 1) rest := by
  rw [Nested, if_neg (Ne.symm differ), if_pos rfl]

theorem other_iff {c : α} (notOpening : c ≠ opening) (notClosing : c ≠ closing) :
    Nested opening closing depth (c :: rest) ↔ Nested opening closing depth rest := by
  rw [Nested, if_neg notOpening, if_neg notClosing]

theorem plain_append_iff (plain : ∀ c ∈ text, c ≠ opening ∧ c ≠ closing) :
    Nested opening closing depth (text ++ rest) ↔ Nested opening closing depth rest := by
  induction text with
  | nil => exact Iff.rfl
  | cons c text ih =>
    obtain ⟨notOpening, notClosing⟩ := plain c List.mem_cons_self
    rw [List.cons_append, other_iff notOpening notClosing]
    exact ih fun d member => plain d (List.mem_cons_of_mem c member)

/-- Any entry leads to a depth from which the rest can be replaced. -/
theorem exists_next {c : α} (nested : Nested opening closing depth (c :: rest)) :
    ∃ next, Nested opening closing next rest ∧
      ∀ rest', Nested opening closing next rest' → Nested opening closing depth (c :: rest') := by
  rw [Nested] at nested
  simp only [Nested]
  split at nested
  next opens => exact ⟨depth + 1, nested, fun _ nested' => by rwa [if_pos opens]⟩
  next other =>
    simp only [if_neg other]
    split at nested
    next closes => exact ⟨depth - 1, nested.2, fun _ nested' => by rw [if_pos closes]; exact ⟨nested.1, nested'⟩⟩
    next notClosing => exact ⟨depth, nested, fun _ nested' => by rwa [if_neg notClosing]⟩

/-- The innermost open brackets are closed in the list; what is between is nested at their depth. -/
theorem exists_closing (count : Nat) (nested : Nested opening closing (depth + (count + 1)) text) :
    ∃ inner, text = inner ++ closing :: afterClosing opening closing (count + 1) text ∧
      Nested opening closing count inner ∧
        Nested opening closing depth (afterClosing opening closing (count + 1) text) := by
  induction text generalizing count with
  | nil => exact absurd nested (Nat.succ_ne_zero (depth + count))
  | cons c rest ih =>
    rw [Nested] at nested
    rw [afterClosing]
    split at nested
    next opens =>
      obtain ⟨inner, split, within, behind⟩ := ih (count + 1) nested
      rw [if_pos opens]
      refine ⟨c :: inner, congrArg (c :: ·) split, ?_, behind⟩
      rwa [opens, opening_iff]
    next other =>
      rw [if_neg other]
      split at nested
      next closes =>
        rw [if_pos closes]
        cases count with
        | zero =>
          -- this is the bracket that was looked for
          have here : afterClosing opening closing 0 rest = rest := by cases rest <;> rfl
          rw [here]
          exact ⟨[], by rw [closes, List.nil_append], rfl, nested.2⟩
        | succ count =>
          obtain ⟨inner, split, within, behind⟩ := ih count nested.2
          refine ⟨c :: inner, congrArg (c :: ·) split, ?_, behind⟩
          have differ : opening ≠ closing := fun same => other (closes.trans same.symm)
          rw [closes, closing_iff differ]
          exact ⟨Nat.succ_pos count, within⟩
      next notClosing =>
        obtain ⟨inner, split, within, behind⟩ := ih count nested
        rw [if_neg notClosing]
        exact ⟨c :: inner, congrArg (c :: ·) split, (other_iff other notClosing).mpr within, behind⟩

end Nested

end Cpptrace.Library
