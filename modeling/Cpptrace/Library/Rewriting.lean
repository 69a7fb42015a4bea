import Mathlib.Data.List.Basic

/-! Rewriting a list from its left end.

A rule is tried at every place, from the left. Where it matches, it writes
something and says where to go on; elsewhere the entry is copied. What is
already written is not looked at again, but a rule may see the entry in front of
the place where it is tried.
-/

set_option autoImplicit false

namespace Cpptrace.Library

variable {α σ : Type}

/-- `front` is given the entry before a place and the list from there on, and gives
what is behind the match; `resume` says what to write for it and where to go on. -/
structure Rewriter (α : Type) where
  front : Option α → List α → Option (List α)
  resume : List α → List α × List α
  shrinks : ∀ {before text behind}, front before text = some behind → (resume behind).2.length < text.length

namespace Rewriter

variable (rule : Rewriter α) {before : Option α} {text behind : List α}

def search : Option α → List α → Option (List α × List α)
  | _, [] => none
  | before, c :: rest =>
    match rule.front before (c :: rest) with
    | some behind => some ([], behind)
    | none => (search (some c) rest).map fun found => (c :: found.1, found.2)

/-- Search, replace and go on, for at most `fuel` matches. A later search knows nothing
of the text in front of it. -/
def replaceFrom : Nat → Option α → List α → List α
  | 0, _, text => text
  | fuel + 1, before, text =>
    match rule.search before text with
    | none => text
    | some (skipped, behind) =>
      skipped ++ ((rule.resume behind).1 ++ replaceFrom fuel none (rule.resume behind).2)

/-- Every match leaves less to do, so the length of the text is fuel enough. -/
def scan (before : Option α) (text : List α) : List α :=
  rule.replaceFrom text.length before text

variable {rule}

theorem front_nil : rule.front before [] = none := by
  cases matched : rule.front before [] with
  | none => rfl
  | some behind => exact absurd (rule.shrinks matched) (Nat.not_lt_zero _)

theorem search_length {skipped : List α} (found : rule.search before text = some (skipped, behind)) :
    (rule.resume behind).2.length < text.length := by
  induction text generalizing before skipped with
  | nil => cases found
  | cons c rest ih =>
    rw [search] at found
    cases matched : rule.front before (c :: rest) with
    | some behind' =>
      rw [matched] at found
      obtain ⟨-, rfl⟩ := Prod.mk.inj (Option.some.inj found)
      exact rule.shrinks matched
    | none =>
      rw [matched] at found
      obtain ⟨⟨skipped', behind'⟩, later, same⟩ := Option.map_eq_some_iff.mp found
      obtain ⟨-, rfl⟩ := Prod.mk.inj same
      exact Nat.lt_succ_of_lt (ih later)

theorem replaceFrom_fuel (fuel : Nat) (enough : text.length ≤ fuel) :
    rule.replaceFrom fuel before text = rule.scan before text := by
  rw [scan]
  generalize atLeast : text.length = size
  have sized : text.length ≤ size := Nat.le_of_eq atLeast
  rw [atLeast] at enough
  clear atLeast
  induction size generalizing fuel before text with
  | zero =>
    obtain rfl := List.length_eq_zero_iff.mp (Nat.le_zero.mp sized)
    cases fuel with
    | zero => rfl
    | succ fuel => rfl
  | succ size ih =>
    obtain ⟨fuel, rfl⟩ := Nat.exists_eq_succ_of_ne_zero (Nat.ne_of_gt (Nat.lt_of_lt_of_le (Nat.succ_pos size) enough))
    rw [replaceFrom, replaceFrom]
    cases found : rule.search before text with
    | none => rfl
    | some found' =>
      have shorter := search_length found
      dsimp only
      rw [ih fuel (by omega) (by omega)]

theorem scan_of_some (matched : rule.front before text = some behind) :
    rule.scan before text = (rule.resume behind).1 ++ rule.scan none (rule.resume behind).2 := by
  have shorter := rule.shrinks matched
  cases text with
  | nil =>
    rw [front_nil] at matched
    cases matched
  | cons c rest =>
    rw [scan, List.length_cons, replaceFrom, search, matched]
    dsimp only
    rw [List.nil_append, replaceFrom_fuel _ (Nat.le_of_lt_succ shorter)]

theorem scan_cons_none {c : α} {rest : List α} (unmatched : rule.front before (c :: rest) = none) :
    rule.scan before (c :: rest) = c :: rule.scan (some c) rest := by
  have extra : rule.replaceFrom (rest.length + 1) (some c) rest = rule.scan (some c) rest :=
    replaceFrom_fuel _ (Nat.le_succ _)
  rw [← extra, scan, List.length_cons, replaceFrom, search, unmatched, replaceFrom]
  cases rule.search (some c) rest with
  | none => rfl
  | some found => rfl

theorem scan_before {before' : Option α} (same : rule.front before text = rule.front before' text) :
    rule.scan before text = rule.scan before' text := by
  cases text with
  | nil => rfl
  | cons c rest =>
    cases matched : rule.front before' (c :: rest) with
    | none => rw [scan_cons_none matched, scan_cons_none (same.trans matched)]
    | some behind => rw [scan_of_some matched, scan_of_some (same.trans matched)]

theorem scan_induction (rule : Rewriter α) {motive : Option α → List α → Prop} (nil : ∀ before, motive before [])
    (skip : ∀ before c rest, rule.front before (c :: rest) = none → motive (some c) rest → motive before (c :: rest))
    (hit : ∀ before text behind, rule.front before text = some behind →
      motive none (rule.resume behind).2 → motive before text)
    (before : Option α) (text : List α) : motive before text := by
  generalize sized : text.length = size
  induction size using Nat.strongRecOn generalizing before text with
  | ind size ih =>
    subst sized
    cases text with
    | nil => exact nil before
    | cons c rest =>
      cases matched : rule.front before (c :: rest) with
      | none => exact skip before c rest matched (ih _ (Nat.lt_succ_self _) _ _ rfl)
      | some behind => exact hit before _ behind matched (ih _ (rule.shrinks matched) _ _ rfl)

/-- No match begins in the first part of a text, so it is copied. -/
theorem scan_copies {after : List α} (fresh : ∀ before, rule.scan before after = rule.scan none after)
    (unmatched : ∀ skipped c rest, text = skipped ++ c :: rest →
      rule.front (skipped.getLast?.or before) (c :: (rest ++ after)) = none) :
    rule.scan before (text ++ after) = text ++ rule.scan none after := by
  induction text generalizing before with
  | nil => exact fresh before
  | cons c rest ih =>
    have first : rule.front before (c :: (rest ++ after)) = none := unmatched [] c rest rfl
    rw [List.cons_append, scan_cons_none first, ih]
    · rfl
    · intro skipped d rest' split
      have later := unmatched (c :: skipped) d rest' (congrArg (c :: ·) split)
      cases skipped with
      | nil => exact later
      | cons e skipped =>
        rw [List.getLast?_cons_cons] at later
        rw [List.getLast?_cons] at later ⊢
        exact later

/-- A reading of the text in states: if copying an entry and replacing a match both keep
it, then the text that comes out is read as the one that went in. -/
theorem scan_keeps {Reads : σ → List α → Prop}
    (copies : ∀ state c rest, Reads state (c :: rest) →
      ∃ next, Reads next rest ∧ ∀ rest', Reads next rest' → Reads state (c :: rest'))
    (replaces : ∀ state before text behind, rule.front before text = some behind → Reads state text →
      ∃ next, Reads next (rule.resume behind).2 ∧
        ∀ rest', Reads next rest' → Reads state ((rule.resume behind).1 ++ rest'))
    {state : σ} (read : Reads state text) : Reads state (rule.scan before text) := by
  induction before, text using scan_induction rule generalizing state with
  | nil before => exact read
  | skip before c rest unmatched ih =>
    obtain ⟨next, later, copied⟩ := copies state c rest read
    rw [scan_cons_none unmatched]
    exact copied _ (ih later)
  | hit before text behind matched ih =>
    obtain ⟨next, later, replaced⟩ := replaces state before text behind matched read
    rw [scan_of_some matched]
    exact replaced _ (ih later)

/-- The places at which the rule is tried, from a place on. -/
inductive Reached (rule : Rewriter α) : Option α → List α → Option α → List α → Prop where
  | here {before : Option α} {text : List α} : Reached rule before text before text
  | skip {before before' : Option α} {c : α} {rest text' : List α} (unmatched : rule.front before (c :: rest) = none)
      (later : Reached rule (some c) rest before' text') : Reached rule before (c :: rest) before' text'
  | hit {before before' : Option α} {text behind text' : List α} (matched : rule.front before text = some behind)
      (later : Reached rule none (rule.resume behind).2 before' text') : Reached rule before text before' text'

/-- From a place that is reached on, what is written does not depend on how it was reached. -/
theorem Reached.exists_written {before' : Option α} {text' : List α}
    (reached : Reached rule before text before' text') :
    ∃ written, rule.scan before text = written ++ rule.scan before' text' := by
  induction reached with
  | here => exact ⟨[], rfl⟩
  | @skip _ _ c _ _ unmatched _ ih =>
    obtain ⟨written, same⟩ := ih
    exact ⟨c :: written, by rw [scan_cons_none unmatched, same, List.cons_append]⟩
  | hit matched _ ih =>
    obtain ⟨written, same⟩ := ih
    exact ⟨_, by rw [scan_of_some matched, same, List.append_assoc]⟩

/-- A reading that copying and replacing keep is one of the text at every place that is reached. -/
theorem Reached.exists_reading {Reads : σ → List α → Prop} {before' : Option α} {text' : List α}
    (reached : Reached rule before text before' text')
    (copies : ∀ state c rest, Reads state (c :: rest) → ∃ next, Reads next rest)
    (replaces : ∀ state before text behind, rule.front before text = some behind → Reads state text →
      ∃ next, Reads next (rule.resume behind).2)
    {state : σ} (read : Reads state text) : ∃ state', Reads state' text' := by
  induction reached generalizing state with
  | here => exact ⟨state, read⟩
  | skip _ _ ih =>
    obtain ⟨next, later⟩ := copies state _ _ read
    exact ih later
  | hit matched _ ih =>
    obtain ⟨next, later⟩ := replaces state _ _ _ matched read
    exact ih later

section Append

/-- No match leads out of a text, but what a match does may: the text is rewritten alone,
or what follows is reached in the middle of what a match took in. -/
theorem scan_append_or (rule : Rewriter α) (Within After : List α → Prop) (Loses : (List α → List α) → Prop)
    (fresh : ∀ after, After after → ∀ before, rule.scan before after = rule.scan none after)
    (tail : ∀ c rest, Within (c :: rest) → Within rest)
    (stable : ∀ before c rest after, Within (c :: rest) → After after →
      rule.front before (c :: (rest ++ after)) = (rule.front before (c :: rest)).map (· ++ after))
    (resumes : ∀ before text behind, rule.front before text = some behind → Within text →
      (Within (rule.resume behind).2 ∧ ∀ after, After after →
        rule.resume (behind ++ after) = ((rule.resume behind).1, (rule.resume behind).2 ++ after)) ∨
      ∃ lose, Loses lose ∧ ∀ after, After after → rule.resume (behind ++ after) = ((rule.resume behind).1, lose after))
    (before : Option α) (text : List α) (within : Within text) :
    (∀ after, After after → rule.scan before (text ++ after) = rule.scan before text ++ rule.scan none after) ∨
      ∃ written lose, Loses lose ∧ ∀ after, After after →
        rule.scan before (text ++ after) = written ++ rule.scan none (lose after) := by
  -- one character at a time, or one match at a time
  induction before, text using scan_induction rule with
  | nil before => exact .inl fun after follows => fresh after follows before
  | skip before c rest unmatched ih =>
    have copied : ∀ after, After after →
        rule.scan before (c :: (rest ++ after)) = c :: rule.scan (some c) (rest ++ after) := fun after follows => by
      have unmatched' := stable before c rest after within follows
      rw [unmatched] at unmatched'
      exact scan_cons_none unmatched'
    rcases ih (tail c rest within) with apart | ⟨written, lose, loses, lost⟩
    · refine .inl fun after follows => ?_
      rw [List.cons_append, copied after follows, apart after follows, scan_cons_none unmatched, List.cons_append]
    · refine .inr ⟨c :: written, lose, loses, fun after follows => ?_⟩
      rw [List.cons_append, copied after follows, lost after follows, List.cons_append]
  | hit before text behind matched ih =>
    cases text with
    | nil =>
      rw [front_nil] at matched
      cases matched
    | cons c rest =>
      have replaced : ∀ after, After after →
          rule.scan before (c :: (rest ++ after)) =
            (rule.resume (behind ++ after)).1 ++ rule.scan none (rule.resume (behind ++ after)).2 :=
              fun after follows => by
        have matched' := stable before c rest after within follows
        rw [matched] at matched'
        exact scan_of_some matched'
      -- what the match resumes with is within the text, or reaches into what follows
      rcases resumes before _ behind matched within with ⟨later, resumed⟩ | ⟨lose, loses, lost⟩
      · rcases ih later with apart | ⟨written, lose, loses, lost⟩
        · refine .inl fun after follows => ?_
          rw [List.cons_append, replaced after follows, resumed after follows, apart after follows,
            scan_of_some matched,
            List.append_assoc]
        · refine .inr ⟨(rule.resume behind).1 ++ written, lose, loses, fun after follows => ?_⟩
          rw [List.cons_append, replaced after follows, resumed after follows, lost after follows, List.append_assoc]
      · refine .inr ⟨(rule.resume behind).1, lose, loses, fun after follows => ?_⟩
        rw [List.cons_append, replaced after follows, lost after follows]

/-- A text that no match and nothing that a match does leads out of. -/
theorem scan_append (Within : List α → Prop) {after : List α}
    (fresh : ∀ before, rule.scan before after = rule.scan none after)
    (tail : ∀ c rest, Within (c :: rest) → Within rest)
    (stable : ∀ before c rest, Within (c :: rest) →
      rule.front before (c :: (rest ++ after)) = (rule.front before (c :: rest)).map (· ++ after))
    (resumes : ∀ before text behind, rule.front before text = some behind → Within text →
      Within (rule.resume behind).2 ∧
        rule.resume (behind ++ after) = ((rule.resume behind).1, (rule.resume behind).2 ++ after))
    (within : Within text) : rule.scan before (text ++ after) = rule.scan before text ++ rule.scan none after := by
  rcases scan_append_or rule Within (· = after) (fun _ => False)
    (fun _ same => same ▸ fresh) tail (fun before c rest _ within same => same ▸ stable before c rest within)
    (fun before text behind matched within => .inl ⟨(resumes before text behind matched within).1,
      fun _ same => same ▸ (resumes before text behind matched within).2⟩) before text
        within with apart | ⟨_, _, never, -⟩
  · exact apart after rfl
  · exact never.elim

end Append

end Rewriter

end Cpptrace.Library
