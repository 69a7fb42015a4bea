import Cpptrace.Formatting.Prettify

/-! Where the expressions of `prettify_symbol` match, and what their rules copy.

Names are made of the characters of `isPath`. Most expressions do not match at such
a character; the others are told from a name in front of a bracket by that bracket.
-/

set_option autoImplicit false

namespace Cpptrace.Formatting

open Cpptrace.Library
open Cpptrace.PruneSymbol (isSpace)

theorem first_unique {c : Char} {front front' behind behind' : Text} (first : c ∉ front) (first' : c ∉ front')
    (same : front ++ c :: behind = front' ++ c :: behind') : front = front' ∧ behind = behind' := by
  induction front generalizing front' with
  | nil =>
    cases front' with
    | nil => exact ⟨rfl, (List.cons.inj same).2⟩
    | cons d front' => exact absurd ((List.cons.inj same).1 ▸ List.mem_cons_self) first'
  | cons d front ih =>
    cases front' with
    | nil => exact absurd ((List.cons.inj same).1 ▸ List.mem_cons_self) first
    | cons d' front' =>
      obtain ⟨rfl, later⟩ := List.cons.inj same
      obtain ⟨rfl, rfl⟩ := ih (fun member => first (List.mem_cons_of_mem d member))
        (fun member => first' (List.mem_cons_of_mem d member)) later
      exact ⟨rfl, rfl⟩

theorem exists_of_not_mem {c : Char} {used behind front rest : Text} (unused : c ∉ used)
    (same : front ++ c :: rest = used ++ behind) : ∃ inner, front = used ++ inner := by
  rcases List.append_eq_append_iff.mp same with ⟨inner, rfl, follows⟩ | ⟨inner, rfl, -⟩
  · cases inner with
    | nil => exact ⟨[], by simp⟩
    | cons d inner =>
      obtain ⟨rfl, -⟩ := List.cons.inj follows
      exact absurd (List.mem_append_right front List.mem_cons_self) unused
  · exact ⟨inner, rfl⟩

theorem word_unique (word word' rest rest' : Text) (isAll : ∀ c ∈ word, isWord c = true)
    (isAll' : ∀ c ∈ word', isWord c = true)
    (ends : ∀ c ∈ rest.head?, isWord c = false) (ends' : ∀ c ∈ rest'.head?, isWord c = false)
    (same : word ++ rest = word' ++ rest') : word = word' ∧ rest = rest' := by
  obtain ⟨whole, behind⟩ := takeWhile_isWord rest isAll ends
  obtain ⟨whole', behind'⟩ := takeWhile_isWord rest' isAll' ends'
  rw [same] at whole behind
  exact ⟨whole.symm.trans whole', behind.symm.trans behind'⟩

theorem isWord_of_isPath {c : Char} (other : isPath c = false) : isWord c = false := by
  rw [isPath, Bool.or_eq_false_iff] at other
  exact other.1

namespace Regex

variable (regex : Regex) {before : Option Char} {text behind : Text}

theorem exists_used (before : Option Char) {text behind : Text} (matched : regex.front before text = some behind) :
    ∃ used, regex.Uses before used ∧ text = used ++ behind :=
  have ⟨used, uses, _, same⟩ := regex.front_eq_some_iff.mp matched
  ⟨used, uses, same⟩

theorem front_eq_none (unused : ∀ used behind, regex.Uses before used → text ≠ used ++ behind) :
    regex.front before text = none := by
  refine Option.eq_none_iff_forall_ne_some.mpr fun behind matched => ?_
  obtain ⟨used, uses, -, same⟩ := regex.front_eq_some_iff.mp matched
  exact unused used behind uses same

theorem front_cons_eq_none {c : Char} (starts : ∀ used, ¬ regex.Uses before (c :: used)) (rest : Text) :
    regex.front before (c :: rest) = none := by
  refine regex.front_eq_none fun used behind uses same => ?_
  obtain ⟨d, used, rfl⟩ := List.exists_cons_of_ne_nil (regex.uses_ne_nil uses)
  obtain ⟨rfl, -⟩ := List.cons.inj same
  exact starts used uses

theorem front_boundary {c : Char} (notWord : isWord c = false) (text : Text) :
    regex.front (some c) text = regex.front none text := by
  refine Option.ext fun behind => ?_
  rw [regex.front_eq_some_iff, regex.front_eq_some_iff]
  simp only [regex.boundary notWord]

theorem scan_separator {rule : Rewriter Char} (reads : rule.front = regex.front) {c : Char} {rest : Text}
    (notWord : isWord c = false) (unmatched : ∀ before, regex.front before (c :: rest) = none) (before : Option Char) :
    rule.scan before (c :: rest) = c :: rule.scan none rest := by
  rw [← reads] at unmatched
  rw [Rewriter.scan_cons_none (unmatched before)]
  congr 1
  exact Rewriter.scan_before (by rw [reads]; exact regex.front_boundary notWord rest)

/-- A match that does not reach into what follows does not depend on it. -/
theorem front_append {after : Text} (trimmed : regex.greedy = true → Trimmed after)
    (apart : ∀ part rest, part ≠ [] → after = part ++ rest → ¬ regex.Uses before (text ++ part)) :
    regex.front before (text ++ after) = (regex.front before text).map (· ++ after) := by
  have trimmed_append (inner : Text) :
      (regex.greedy = true → Trimmed (inner ++ after)) ↔ (regex.greedy = true → Trimmed inner) := by
    cases inner with
    | nil => exact ⟨fun _ _ => nofun, fun _ => trimmed⟩
    | cons c rest => exact Iff.rfl
  refine Option.ext fun behind => ?_
  rw [regex.front_eq_some_iff, Option.map_eq_some_iff]
  constructor
  · rintro ⟨used, uses, greedy, same⟩
    -- the match ends in what follows, or in front of it
    rcases List.append_eq_append_iff.mp same with ⟨part, rfl, follows⟩ | ⟨inner, rfl, rfl⟩
    · by_cases empty : part = []
      · subst empty
        rw [List.append_nil] at uses
        refine ⟨[], regex.front_eq_some_iff.mpr ⟨text, uses, fun _ => nofun, (List.append_nil text).symm⟩, follows⟩
      · exact absurd uses (apart part behind empty follows)
    · exact ⟨inner, regex.front_eq_some_iff.mpr ⟨used, uses, (trimmed_append inner).mp greedy, rfl⟩, rfl⟩
  · rintro ⟨inner, matched, rfl⟩
    obtain ⟨used, uses, greedy, rfl⟩ := regex.front_eq_some_iff.mp matched
    exact ⟨used, uses, (trimmed_append inner).mpr greedy, List.append_assoc _ _ _⟩

end Regex

theorem not_mem_keyword {word blank : Text} {c : Char} (isKeyword : word ∈ ["class".toList, "struct".toList])
    (isBlank : Blank blank) (other : c ∉ "classstruct".toList) (visible : isSpace c = false) : c ∉ word ++ blank := by
  intro member
  rcases List.mem_append.mp member with inWord | inBlank
  · rcases List.mem_pair.mp isKeyword with rfl | rfl
    · exact other (List.mem_append_left "struct".toList inWord)
    · exact other (List.mem_append_right "class".toList inWord)
  · rw [isBlank c inBlank] at visible
    cases visible

theorem not_mem_std {scope word : Text} {c : Char} (isScope : IsScope scope) (isWord : ∀ c ∈ word, isWord c = true)
    (other : isPath c = false) : c ∉ "std::".toList ++ (scope ++ word) := by
  intro member
  rcases List.mem_append.mp member with inStd | member
  · exact ne_of_isPath ((show ∀ c ∈ "std::".toList, isPath c = true by decide) c inStd) other rfl
  · rcases List.mem_append.mp member with inScope | inWord
    · exact ne_of_isPath (isScope.isPath c inScope) other rfl
    · exact ne_of_isPath (isPath_of_isWord (isWord c inWord)) other rfl

theorem afterBracket_path {text : Text} (path : ∀ c ∈ text, isPath c = true) (depth : Nat) (rest : Text) :
    afterBracket (depth + 1) (text ++ rest) = afterBracket (depth + 1) rest := by
  induction text with
  | nil => rfl
  | cons c text ih =>
    have path' := path c List.mem_cons_self
    rw [List.cons_append, afterBracket, if_neg (ne_of_isPath path' rfl), if_neg (ne_of_isPath path' rfl)]
    exact ih fun d member => path d (List.mem_cons_of_mem c member)

def Outside (regex : Regex) : Prop :=
  ∀ before c used, isPath c = true → ¬ regex.Uses before (c :: used)

theorem outside_literal {c : Char} {text : Text} (other : isPath c = false) :
    Outside (.literal (c :: text) (List.cons_ne_nil c text)) :=
  fun _ _ _ path same => ne_of_isPath path other (List.cons.inj same).1

theorem outside_comma : Outside .comma := by
  rintro before c used path ⟨front, back, isFront, -, whole⟩
  cases front with
  | nil => exact ne_of_isPath path rfl (List.cons.inj whole).1
  | cons d front =>
    have blank : isSpace c = true := (List.cons.inj whole).1 ▸ isFront d List.mem_cons_self
    rw [isPath_of_isSpace blank] at path
    cases path

theorem outside_argument {name : OpenedName} : Outside (.argument name) := by
  rintro before c used path ⟨blank, scope, -, -, whole⟩
  exact ne_of_isPath path rfl (List.cons.inj whole).1

structure Copies (regex : Regex) (Fits : Text → Prop) : Prop where
  misses : ∀ {before c rest arguments}, Fits arguments → (∀ d ∈ c :: rest, isPath d = true) →
    regex.front before (c :: (rest ++ '<' :: arguments)) = none
  bracket : ∀ before used, ¬ regex.Uses before ('<' :: used)

section Copies

variable {regex : Regex} {rule : Rewriter Char} {Fits : Text → Prop} {before : Option Char} {text arguments : Text}

theorem Copies.scan_bracket (copies : Copies regex Fits) (reads : rule.front = regex.front) :
    rule.scan before ('<' :: arguments) = '<' :: rule.scan none arguments :=
  regex.scan_separator reads rfl (fun before => regex.front_cons_eq_none (copies.bracket before) arguments) before

theorem Copies.scan_name (copies : Copies regex Fits) (reads : rule.front = regex.front) (fits : Fits arguments)
    (path : ∀ c ∈ text, isPath c = true) :
    rule.scan before (text ++ '<' :: arguments) = text ++ '<' :: rule.scan none arguments := by
  rw [Rewriter.scan_copies fun before => (copies.scan_bracket reads).trans (copies.scan_bracket reads).symm,
    copies.scan_bracket reads]
  rintro skipped c rest rfl
  rw [reads]
  exact copies.misses fits fun d member => path d (List.mem_append_right skipped member)

theorem copies_of_outside (outside : Outside regex) (bracket : ∀ before used, ¬ regex.Uses before ('<' :: used)) :
    Copies regex Fits where
  misses _ path := regex.front_cons_eq_none (outside _ _ · (path _ List.mem_cons_self)) _
  bracket := bracket

theorem copies_literal {c : Char} {rest : Text} (other : isPath c = false) (bracket : c ≠ '<') :
    Copies (.literal (c :: rest) (List.cons_ne_nil c rest)) Fits :=
  copies_of_outside (outside_literal other) fun _ _ same => bracket (List.cons.inj same).1.symm

theorem copies_comma : Copies .comma Fits := by
  refine copies_of_outside outside_comma ?_
  rintro before used ⟨front, back, isFront, -, whole⟩
  cases front with
  | nil => exact absurd (List.cons.inj whole).1 (by decide)
  | cons d front =>
    obtain ⟨rfl, -⟩ := List.cons.inj whole
    exact absurd (isFront _ List.mem_cons_self) (by decide)

theorem copies_argument {name : OpenedName} : Copies (.argument name) Fits := by
  refine copies_of_outside outside_argument ?_
  rintro before used ⟨blank, scope, -, -, whole⟩
  exact absurd (List.cons.inj whole).1 (by decide)

theorem copies_classKeyword : Copies .classKeyword Fits where
  misses := by
    intro before c rest arguments _ path
    refine Regex.front_eq_none _ fun used behind uses whole => ?_
    obtain ⟨-, word, isKeyword, blank, nonempty, isBlank, rfl⟩ := uses
    -- a match would end in front of the bracket, and then with a space in the name
    have unopened := not_mem_keyword isKeyword isBlank (show '<' ∉ "classstruct".toList by decide) rfl
    obtain ⟨d, last⟩ := Option.ne_none_iff_exists'.mp (fun none' => nonempty (List.getLast?_eq_none_iff.mp none'))
    have inBlank := List.mem_of_getLast? last
    rw [← List.cons_append] at whole
    obtain ⟨inner, within⟩ := exists_of_not_mem unopened whole
    have outside := path d (within ▸ List.mem_append_left inner (List.mem_append_right word inBlank))
    rw [isPath_of_isSpace (isBlank d inBlank)] at outside
    cases outside
  bracket := by
    rintro before used ⟨-, word, isKeyword, blank, -, isBlank, whole⟩
    exact not_mem_keyword isKeyword isBlank (by decide) (by decide) (whole ▸ List.mem_cons_self)

theorem copies_std {name : OpenedName} : Copies (.std name) fun arguments => ¬ name.tail <+: arguments where
  misses := by
    intro before c rest arguments fits path
    refine Regex.front_eq_none _ fun used behind uses whole => fits ?_
    obtain ⟨scope, isScope, rfl⟩ := uses
    have unopened : '<' ∉ c :: rest := fun member => ne_of_isPath (path _ member) rfl rfl
    have whole' : (c :: rest) ++ '<' :: arguments =
        ("std::".toList ++ (scope ++ name.word)) ++ '<' :: (name.tail ++ behind) := by
      rw [List.cons_append, whole, OpenedName.text]
      simp only [List.append_assoc, List.cons_append]
    exact (first_unique unopened (not_mem_std isScope name.isWord rfl) whole').2 ▸ List.prefix_append _ _
  bracket := by
    rintro before used ⟨scope, -, whole⟩
    exact absurd (List.cons.inj whole).1 (by decide)

end Copies

/-- A word that is no keyword of the expressions. -/
structure Identifier where
  text : Text
  nonempty : text ≠ []
  isWord : ∀ c ∈ text, isWord c = true
  notKeyword : text ∉ ["class".toList, "struct".toList]

/-- The rule for `class` and `struct` does not match where an identifier stands. -/
theorem front_classKeyword (identifier : Identifier) {behind : Text} (ends : ∀ c ∈ behind.head?, isWord c = false) :
    Regex.classKeyword.front none (identifier.text ++ behind) = none := by
  refine Regex.front_eq_none _ fun used behind' uses whole => identifier.notKeyword ?_
  obtain ⟨-, word, isKeyword, blank, nonempty, isBlank, rfl⟩ := uses
  have isWord' : ∀ c ∈ word, isWord c = true := by
    rcases List.mem_pair.mp isKeyword with rfl | rfl <;> decide
  have spaced : ∀ c ∈ (blank ++ behind').head?, isWord c = false := by
    obtain ⟨d, blank, rfl⟩ := List.exists_cons_of_ne_nil nonempty
    intro c head
    obtain rfl := Option.some.inj head
    exact isWord_of_isPath (isPath_of_isSpace (isBlank d List.mem_cons_self))
  rw [List.append_assoc] at whole
  -- both are the first word of the text, so the identifier would be the keyword
  obtain ⟨same, -⟩ := word_unique _ _ _ _ identifier.isWord isWord' ends spaced whole
  exact same ▸ isKeyword

def BeginsWith (name arguments : Text) : Prop :=
  ∃ rest, arguments = name ++ rest ∧ ∀ c ∈ rest.head?, isPath c = false

section BeginsWith

variable {rule : Rewriter Char} {name arguments : Text}

theorem BeginsWith.scan (regex : Regex) (begins : BeginsWith name arguments) (reads : rule.front = regex.front)
    (fresh : ∀ before c rest, isPath c = false → regex.front before (c :: rest) = regex.front none (c :: rest))
    (within : ∀ skipped c rest after, name = skipped ++ c :: rest → (∀ d ∈ after.head?, isPath d = false) →
      regex.front skipped.getLast? (c :: (rest ++ after)) = none)
    (emits : ∀ before c rest behind, isPath c = false → regex.front before (c :: rest) = some behind →
      ∃ d more, (rule.resume behind).1 = d :: more ∧ isPath d = false) :
    BeginsWith name (rule.scan none arguments) := by
  obtain ⟨rest, rfl, ends⟩ := begins
  have fresh' (before : Option Char) : rule.scan before rest = rule.scan none rest := by
    cases rest with
    | nil => rfl
    | cons c rest => exact Rewriter.scan_before (reads ▸ fresh before c rest (ends c rfl))
  refine ⟨rule.scan none rest, Rewriter.scan_copies fresh' fun skipped c rest' split => ?_, ?_⟩
  · rw [reads, Option.or_none]
    exact within skipped c rest' rest split ends
  · cases rest with
    | nil => exact nofun
    | cons c rest =>
      have outside := ends c rfl
      cases matched : regex.front none (c :: rest) with
      | none =>
        rw [Rewriter.scan_cons_none (reads ▸ matched)]
        exact fun d first => Option.some.inj first ▸ outside
      | some behind =>
        obtain ⟨d, more, emitted, outside'⟩ := emits none c rest behind outside matched
        rw [Rewriter.scan_of_some (reads ▸ matched), emitted]
        exact fun d first => Option.some.inj first ▸ outside'

/-- The expressions whose matches begin outside names, with what is written for them. -/
theorem BeginsWith.scan_of_outside (regex : Regex) (path : ∀ c ∈ name, isPath c = true)
    (begins : BeginsWith name arguments) (reads : rule.front = regex.front)
    (ignores : ∀ before, regex.front before = regex.front none)
    (outside : Outside regex)
    (emits : ∀ behind, ∃ d more, (rule.resume behind).1 = d :: more ∧ isPath d = false) :
    BeginsWith name (rule.scan none arguments) := by
  refine begins.scan regex reads (fun before c rest _ => congrFun (ignores before) _) ?_
    fun _ _ _ behind _ _ => emits behind
  intro skipped c rest after split _
  exact regex.front_cons_eq_none (outside _ c · (path c (split ▸ List.mem_append_right skipped List.mem_cons_self))) _

end BeginsWith

end Cpptrace.Formatting
