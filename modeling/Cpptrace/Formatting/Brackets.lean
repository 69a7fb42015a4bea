import Cpptrace.Formatting.Matching

/-! Reading the brackets of a symbol.

The name of a function may hold any character; its brackets only have to be
closed in it. A parameter has at most one argument list outside of others, behind
the characters of its name, and no comma or parenthesis outside of it.
-/

set_option autoImplicit false

namespace Cpptrace.Formatting

open Cpptrace.Library
open Cpptrace.PruneSymbol (isSpace)

inductive Part where
  | name
  | parameter
  deriving DecidableEq

structure Place where
  depth : Nat
  named : Bool
  deriving DecidableEq

def Part.step (part : Part) (place : Place) (c : Char) : Option Place :=
  if c = '<' then
    if part = .parameter ∧ place.depth = 0 ∧ place.named = true then none else some ⟨place.depth + 1, true⟩
  else if c = '>' then
    if part = .parameter ∧ place.depth = 0 then none else some ⟨place.depth - 1, true⟩
  else if part = .name then some place
  else if c ∈ ['(', ')', '`'] then none
  else if 0 < place.depth then some place
  else if c = ',' then none
  else some ⟨0, place.named || !isPath c⟩

def Part.run (part : Part) (place : Place) (text : Text) : Option Place :=
  text.foldlM part.step place

def Part.Reads (part : Part) (place : Place) (text : Text) : Prop :=
  ∃ final, part.run place text = some final ∧ final.depth = 0

namespace Part

variable {part : Part} {place : Place} {c : Char} {text rest : Text}

theorem reads_cons : part.Reads place (c :: rest) ↔ ∃ next, part.step place c = some next ∧ part.Reads next rest := by
  simp only [Reads, run, List.foldlM_cons, Option.bind_eq_bind, Option.bind_eq_some_iff]
  constructor
  · rintro ⟨final, ⟨next, step, ran⟩, closed⟩
    exact ⟨next, step, final, ran, closed⟩
  · rintro ⟨next, step, final, ran, closed⟩
    exact ⟨final, ⟨next, step, ran⟩, closed⟩

theorem reads_append :
    part.Reads place (text ++ rest) ↔ ∃ next, part.run place text = some next ∧ part.Reads next rest := by
  simp only [Reads, run, List.foldlM_append, Option.bind_eq_bind, Option.bind_eq_some_iff]
  constructor
  · rintro ⟨final, ⟨next, step, ran⟩, closed⟩
    exact ⟨next, step, final, ran, closed⟩
  · rintro ⟨next, step, final, ran, closed⟩
    exact ⟨final, ⟨next, step, ran⟩, closed⟩

theorem run_still (still : ∀ c ∈ text, part.step place c = some place) : part.run place text = some place := by
  induction text with
  | nil => rfl
  | cons c rest ih =>
    rw [run, List.foldlM_cons, still c List.mem_cons_self]
    exact ih fun d member => still d (List.mem_cons_of_mem c member)

theorem reads_still (still : ∀ c ∈ text, part.step place c = some place) :
    part.Reads place (text ++ rest) ↔ part.Reads place rest := by
  rw [reads_append, run_still still]
  exact ⟨fun ⟨_, same, reads⟩ => Option.some.inj same ▸ reads, fun reads => ⟨place, rfl, reads⟩⟩

theorem step_path (path : isPath c = true) : part.step place c = some place := by
  have other (d : Char) (outside : isPath d = false) : c ≠ d := ne_of_isPath path outside
  rw [step, if_neg (other '<' rfl), if_neg (other '>' rfl)]
  split
  · rfl
  · rw [if_neg (by simp [other '(' rfl, other ')' rfl, other '`' rfl]), if_neg (other ',' rfl), path]
    split
    · rfl
    · next outer =>
      rw [Bool.not_true, Bool.or_false]
      exact congrArg some (by rw [← Nat.eq_zero_of_not_pos outer])

theorem reads_path (path : ∀ c ∈ text, isPath c = true) : part.Reads place (text ++ rest) ↔ part.Reads place rest :=
  reads_still fun c member => step_path (path c member)

theorem step_of_named {depth : Nat} {next : Place} (step : part.step ⟨depth, true⟩ c = some next) (named : Bool) :
    next.named = true ∧ ∃ named', part.step ⟨depth, named⟩ c = some ⟨next.depth, named'⟩ := by
  unfold Part.step at step ⊢
  grind

/-- Reading on behind the name is reading on in it: a bracket may open there as well. -/
theorem reads_of_named {depth : Nat} {named : Bool} (reads : part.Reads ⟨depth, true⟩ text) :
    part.Reads ⟨depth, named⟩ text := by
  induction text generalizing depth named with
  | nil =>
    obtain ⟨final, ran, closed⟩ := reads
    cases ran
    exact ⟨_, rfl, closed⟩
  | cons c rest ih =>
    obtain ⟨⟨depth', named'⟩, step, later⟩ := reads_cons.mp reads
    obtain ⟨rfl, named'', step'⟩ := step_of_named step named
    exact reads_cons.mpr ⟨_, step', ih later⟩

theorem reads_afterBracket {depth closing : Nat} (reads : part.Reads ⟨depth + closing, true⟩ text) :
    part.Reads ⟨depth, true⟩ (afterBracket closing text) ∧
      ∀ after, afterBracket closing (text ++ after) = afterBracket closing text ++ after := by
  induction text generalizing closing with
  | nil =>
    obtain ⟨final, ran, closed⟩ := reads
    cases ran
    obtain ⟨rfl, rfl⟩ : depth = 0 ∧ closing = 0 := by
      dsimp only at closed
      omega
    exact ⟨⟨_, rfl, rfl⟩, fun after => by simp [afterBracket_zero]⟩
  | cons c rest ih =>
    cases closing with
    | zero => exact ⟨by simpa [afterBracket_zero] using reads, fun after => by simp [afterBracket_zero]⟩
    | succ closing =>
      obtain ⟨next, step, later⟩ := reads_cons.mp reads
      simp only [List.cons_append, afterBracket]
      -- both counts move alike, as the brackets passed are the innermost open ones
      have moved : next =
          ⟨depth + (if c = '<' then closing + 2 else if c = '>' then closing else closing + 1), true⟩ := by
        unfold Part.step at step
        grind
      subst moved
      split
      · next opens => exact ih (by simpa [opens] using later)
      · next other =>
        split
        · next closes => exact ih (by simpa [closes] using later)
        · next inner => exact ih (by simpa [other, inner] using later)

theorem step_inner (inner : part = .name ∨ 0 < place.depth) (plain : c ∉ ['<', '>', '(', ')', '`']) :
    part.step place c = some place := by
  unfold Part.step
  grind

theorem reads_blank {blank : Text} (isBlank : Blank blank) (reads : part.Reads place (blank ++ rest)) :
    part.Reads place rest := by
  induction blank generalizing place with
  | nil => exact reads
  | cons c blank ih =>
    obtain ⟨next, step, later⟩ := reads_cons.mp reads
    have later := ih (fun d member => isBlank d (List.mem_cons_of_mem c member)) later
    have outside := isPath_of_isSpace (isBlank c List.mem_cons_self)
    have moved : next = place ∨ next = ⟨place.depth, true⟩ := by
      have space := isBlank c List.mem_cons_self
      have bracket : c ≠ '<' ∧ c ≠ '>' :=
          ⟨fun same => absurd (same ▸ space) (by decide), fun same => absurd (same ▸ space) (by decide)⟩
      unfold Part.step at step
      grind
    rcases moved with rfl | rfl
    · exact later
    · exact reads_of_named later

theorem inner_of_comma {blank : Text} (isBlank : Blank blank) (reads : part.Reads place (blank ++ ',' :: rest)) :
    part = .name ∨ 0 < place.depth := by
  have reads := reads_blank isBlank reads
  obtain ⟨next, step, -⟩ := reads_cons.mp reads
  unfold Part.step at step
  grind

/-- A bracket is closed in a text, at a place where the text can be read on. -/
def Closes (part : Part) (place : Place) (behind : Text) : Prop :=
  part.Reads ⟨place.depth, true⟩ (afterBracket 1 behind) ∧
    ∀ after, afterBracket 1 (behind ++ after) = afterBracket 1 behind ++ after

theorem closes_opened {name : OpenedName} {scope behind : Text} (isScope : IsScope scope)
    (path : ∀ c ∈ name.tail, isPath c = true)
    (reads : part.Reads place ("std::".toList ++ (scope ++ (name.text ++ behind)))) : part.Closes place behind := by
  have isStd : ∀ c ∈ "std::".toList, isPath c = true := by decide
  rw [reads_path isStd, reads_path isScope.isPath, OpenedName.text, List.append_assoc, List.cons_append,
    reads_path fun c member => isPath_of_isWord (name.isWord c member), reads_cons] at reads
  obtain ⟨next, step, later⟩ := reads
  obtain rfl : next = ⟨place.depth + 1, true⟩ := by
    unfold Part.step at step
    grind
  exact reads_afterBracket ((reads_path path).mp later)

variable (before : Option Char) {behind : Text} {name : OpenedName}

theorem closes_std (path : ∀ c ∈ name.tail, isPath c = true)
    (matched : (Regex.std name).front before text = some behind)
    (reads : part.Reads place text) : part.Closes place behind := by
  obtain ⟨_, ⟨scope, isScope, rfl⟩, rfl⟩ := Regex.exists_used (.std name) before matched
  simp only [List.append_assoc] at reads
  exact closes_opened isScope path reads

theorem closes_argument (path : ∀ c ∈ name.tail, isPath c = true)
    (matched : (Regex.argument name).front before text = some behind) (reads : part.Reads place text) :
    part.Closes place behind := by
  obtain ⟨_, ⟨blank, scope, isBlank, isScope, rfl⟩, rfl⟩ := Regex.exists_used (.argument name) before matched
  simp only [List.append_assoc, List.cons_append] at reads
  have isNil : Blank [] := fun _ => nofun
  have inner := inner_of_comma isNil reads
  obtain ⟨next, step, later⟩ := reads_cons.mp reads
  obtain rfl := Option.some.inj ((step_inner inner (by decide)).symm.trans step)
  exact closes_opened isScope path (reads_blank isBlank later)

end Part

structure ReadsOn (part : Part) (rule : Rewriter Char) : Prop where
  keeps : ∀ {place before text behind}, rule.front before text = some behind → part.Reads place text →
    ∃ next, part.Reads next (rule.resume behind).2 ∧
      ∀ rest, part.Reads next rest → part.Reads place ((rule.resume behind).1 ++ rest)
  within : ∀ {place before text behind}, rule.front before text = some behind → part.Reads place text →
    ∀ after, rule.resume (behind ++ after) = ((rule.resume behind).1, (rule.resume behind).2 ++ after)

section Rules

variable {part : Part} {rule : Rewriter Char} {place : Place} {before : Option Char} {text : Text}

theorem ReadsOn.scan (readsOn : ReadsOn part rule) (reads : part.Reads place text) :
    part.Reads place (rule.scan before text) :=
  Rewriter.scan_keeps
    (fun _ _ _ reads =>
      have ⟨next, step, later⟩ := Part.reads_cons.mp reads
      ⟨next, later, fun _ reads' => Part.reads_cons.mpr ⟨next, step, reads'⟩⟩)
    (fun _ _ _ _ matched reads => readsOn.keeps matched reads) reads

theorem readsOn_foldBrackets : ReadsOn part foldBrackets where
  keeps := by
    intro place before text behind matched reads
    obtain rfl : '>' :: ' ' :: '>' :: behind = text := List.isPrefixOf?_eq_some_iff_append_eq.mp matched
    obtain ⟨next, step, spaced⟩ := Part.reads_cons.mp reads
    obtain ⟨next', step', later⟩ := Part.reads_cons.mp spaced
    -- the space between them is passed on the spot
    have same : next' = next := by
      unfold Part.step at step step'
      grind
    rw [same] at later
    exact ⟨next, later, fun rest reads' => Part.reads_cons.mpr ⟨next, step, reads'⟩⟩
  within _ _ _ := rfl

theorem readsOn_comma : ReadsOn part (Regex.rule .comma ", ".toList) where
  keeps := by
    intro place before text behind matched reads
    obtain ⟨_, ⟨front, back, isFront, isBack, rfl⟩, rfl⟩ := Regex.exists_used .comma before matched
    rw [List.append_assoc, List.cons_append] at reads
    have inner := Part.inner_of_comma isFront reads
    have comma : part.step place ',' = some place := Part.step_inner inner (by decide)
    have space : part.step place ' ' = some place := Part.step_inner inner (by decide)
    obtain ⟨next, step, later⟩ := Part.reads_cons.mp (Part.reads_blank isFront reads)
    obtain rfl := Option.some.inj (comma.symm.trans step)
    refine ⟨place, Part.reads_blank isBack later, fun rest reads' => ?_⟩
    exact Part.reads_cons.mpr ⟨place, comma, Part.reads_cons.mpr ⟨place, space, reads'⟩⟩
  within _ _ _ := rfl

theorem readsOn_classKeyword : ReadsOn part (Regex.rule .classKeyword []) where
  keeps := by
    intro place before text behind matched reads
    obtain ⟨_, ⟨-, word, isKeyword, blank, -, isBlank, rfl⟩, rfl⟩ := Regex.exists_used .classKeyword before matched
    have path : ∀ c ∈ word, isPath c = true := by
      rcases List.mem_pair.mp isKeyword with rfl | rfl <;> decide
    rw [List.append_assoc, Part.reads_path path] at reads
    exact ⟨place, Part.reads_blank isBlank reads, fun rest reads' => reads'⟩
  within _ _ _ := rfl

theorem readsOn_msvcAnonymousNamespace :
    ReadsOn part (Regex.rule .msvcAnonymousNamespace "(anonymous namespace)".toList) where
  keeps := by
    intro place before text behind matched reads
    obtain ⟨used, uses, rfl⟩ := Regex.exists_used .msvcAnonymousNamespace before matched
    obtain rfl : used = "`anonymous namespace'".toList := uses
    -- a parameter has no such quote, and the parentheses that are written change nothing in a name
    cases part with
    | parameter =>
      obtain ⟨next, step, -⟩ := Part.reads_cons.mp reads
      exact absurd (show Part.parameter.step place '`' = some next from step) (by simp [Part.step])
    | name =>
      have still {text : Text} (plain : ∀ c ∈ text, c ≠ '<' ∧ c ≠ '>') :
          ∀ c ∈ text, Part.name.step place c = some place := by
        intro c member
        have := plain c member
        unfold Part.step
        grind
      have plain : ∀ c ∈ "(anonymous namespace)".toList, c ≠ '<' ∧ c ≠ '>' := by decide
      exact ⟨place, (Part.reads_still (still (by decide))).mp reads, fun rest reads' =>
        (Part.reads_still (still plain)).mpr reads'⟩
  within _ _ _ := rfl

theorem readsOn_std {name : OpenedName} {replacement : Text} (path : ∀ c ∈ name.tail, isPath c = true)
    (path' : ∀ c ∈ replacement, isPath c = true) : ReadsOn part (Regex.templateRule (.std name) replacement) where
  keeps {place before _ _} matched reads :=
    ⟨place, Part.reads_of_named (Part.closes_std before path matched reads).1, fun _ reads' =>
      (Part.reads_path path').mpr reads'⟩
  within {_ before _ _} matched reads after :=
    congrArg (Prod.mk replacement) ((Part.closes_std before path matched reads).2 after)

theorem readsOn_argument {name : OpenedName} (path : ∀ c ∈ name.tail, isPath c = true) :
    ReadsOn part (Regex.templateRule (.argument name) []) where
  keeps {place before _ _} matched reads :=
    ⟨place, Part.reads_of_named (Part.closes_argument before path matched reads).1, fun _ reads' => reads'⟩
  within {_ before _ _} matched reads after :=
    congrArg (Prod.mk []) ((Part.closes_argument before path matched reads).2 after)

theorem readsOn_dropAbiNamespace : ReadsOn part dropAbiNamespace where
  keeps := by
    intro place before text behind matched reads
    obtain rfl : "std::__cxx11::".toList ++ behind = text := List.isPrefixOf?_eq_some_iff_append_eq.mp matched
    have isAbi : ∀ c ∈ "std::__cxx11::".toList, isPath c = true := by decide
    have isRest : ∀ c ∈ "td::".toList, isPath c = true := by decide
    have isFirst : ∀ c ∈ ['s'], isPath c = true := by decide
    rw [Part.reads_path isAbi] at reads
    exact ⟨place, (Part.reads_path isRest).mpr reads, fun rest reads' => (Part.reads_path isFirst).mpr reads'⟩
  within _ _ _ := rfl

end Rules

end Cpptrace.Formatting
