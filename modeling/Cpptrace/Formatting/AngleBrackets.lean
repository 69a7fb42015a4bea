import Cpptrace.Formatting.Matching
import Cpptrace.Library.Nesting

/-! The angle brackets of a symbol under `prettify_symbol`.

A pass keeps the brackets nested if each of its replacements does. A rule for a
template removes its match with all that the bracket in it opens, which is nested
on its own.
-/

set_option autoImplicit false

namespace Cpptrace.Formatting

open Cpptrace.Library
open Cpptrace.PruneSymbol (isSpace)

/-- `<` and `>` match, read with that many `<` open. -/
abbrev AnglesNested (depth : Nat) (text : Text) : Prop := Nested '<' '>' depth text

def Bare (text : Text) : Prop := ∀ c ∈ text, c ≠ '<' ∧ c ≠ '>'

instance (text : Text) : Decidable (Bare text) := inferInstanceAs (Decidable (∀ c ∈ text, c ≠ '<' ∧ c ≠ '>'))

section Passes

structure TemplateRule where
  name : OpenedName
  regex : Regex
  replacement : Text

def TemplateRule.rule (rule : TemplateRule) : Rewriter Char := rule.regex.templateRule rule.replacement

def TemplateRule.apply (rule : TemplateRule) (text : Text) : Text := replaceAllTemplate rule.regex rule.replacement text

def templateRules : List TemplateRule :=
  [⟨basicString, .std basicString, "std::string".toList⟩,
    ⟨basicStringView, .std basicStringView, "std::string_view".toList⟩,
    ⟨allocator, .argument allocator, []⟩, ⟨defaultDelete, .argument defaultDelete, []⟩]

/-- The text that the first rule for templates is given. -/
def beforeTemplates (symbol : Text) : Text :=
  replaceAll .msvcAnonymousNamespace "(anonymous namespace)".toList
    (replaceAll .classKeyword [] (replaceAll .comma ", ".toList (foldBrackets.scan none symbol)))

def applyTemplates : List TemplateRule → Text → Text
  | [], text => text
  | rule :: rest, text => applyTemplates rest (rule.apply text)

def templatePasses : List TemplateRule → Text → List (TemplateRule × Text)
  | [], _ => []
  | rule :: rest, text => (rule, text) :: templatePasses rest (rule.apply text)

theorem prettifySymbol_passes (symbol : Text) :
    prettifySymbol symbol =
      dropAbiNamespace.scan none (applyTemplates templateRules (beforeTemplates symbol)) := by
  simp only [prettifySymbol, beforeTemplates, templateRules, applyTemplates, TemplateRule.apply]

end Passes

section Bareness

variable {text rest : Text} {depth : Nat}

theorem bare_append_iff : Bare (text ++ rest) ↔ Bare text ∧ Bare rest := List.forall_mem_append

theorem bare_of_blank (blank : Blank text) : Bare text := fun c member => by
  have space := blank c member
  constructor <;> rintro rfl <;> exact absurd space (by decide)

theorem bare_of_path (path : ∀ c ∈ text, isPath c = true) : Bare text := fun c member =>
  ⟨ne_of_isPath (path c member) rfl, ne_of_isPath (path c member) rfl⟩

theorem AnglesNested.bare_append_iff (bare : Bare text) : AnglesNested depth (text ++ rest) ↔ AnglesNested depth rest :=
  Nested.plain_append_iff bare

theorem afterBracket_eq (count : Nat) (text : Text) : afterBracket count text = afterClosing '<' '>' count text := by
  induction text generalizing count with
  | nil => cases count <;> rfl
  | cons c rest ih =>
    cases count with
    | zero => rfl
    | succ count => simp only [afterBracket, afterClosing, ih]

end Bareness

def KeepsAngles (rule : Rewriter Char) : Prop :=
  ∀ depth before text behind, rule.front before text = some behind → AnglesNested depth text →
    ∃ next, AnglesNested next (rule.resume behind).2 ∧
      ∀ rest', AnglesNested next rest' → AnglesNested depth ((rule.resume behind).1 ++ rest')

namespace KeepsAngles

variable {rule : Rewriter Char} {before : Option Char} {text : Text} {depth : Nat}

theorem scan (keeps : KeepsAngles rule) (before : Option Char) (nested : AnglesNested depth text) :
    AnglesNested depth (rule.scan before text) :=
  Rewriter.scan_keeps (fun _ _ _ nested => nested.exists_next) keeps nested

theorem reached (keeps : KeepsAngles rule) (nested : AnglesNested depth text) {before' : Option Char} {text' : Text}
    (reached : rule.Reached before text before' text') : ∃ depth', AnglesNested depth' text' :=
  reached.exists_reading
    (fun _ _ _ nested =>
      have ⟨next, later, _⟩ := nested.exists_next
      ⟨next, later⟩)
    (fun depth before text behind matched nested =>
      have ⟨next, later, _⟩ := keeps depth before text behind matched nested
      ⟨next, later⟩)
    nested

theorem of_bare (regex : Regex) {replacement : Text} (written : Bare replacement)
    (bare : ∀ before used, regex.Uses before used → Bare used) : KeepsAngles (regex.rule replacement) := by
  intro depth before text behind matched nested
  obtain ⟨used, uses, rfl⟩ := Regex.exists_used regex before matched
  exact ⟨depth, (AnglesNested.bare_append_iff (bare before used uses)).mp nested,
    fun rest' nested' => (AnglesNested.bare_append_iff written).mpr nested'⟩

theorem foldBrackets : KeepsAngles foldBrackets := by
  intro depth before text behind matched nested
  obtain rfl : '>' :: ' ' :: '>' :: behind = text := List.isPrefixOf?_eq_some_iff_append_eq.mp matched
  have closes (rest : Text) : AnglesNested depth ('>' :: rest) ↔ 0 < depth ∧ AnglesNested (depth - 1) rest :=
    Nested.closing_iff (by decide)
  have space (rest : Text) : AnglesNested (depth - 1) (' ' :: rest) ↔ AnglesNested (depth - 1) rest :=
    Nested.other_iff (by decide) (by decide)
  obtain ⟨opened, later⟩ := (closes _).mp nested
  -- the second bracket is tried again, so only the space is gone
  exact ⟨depth - 1, (space _).mp later, fun rest' nested' => (closes rest').mpr ⟨opened, nested'⟩⟩

theorem comma : KeepsAngles (Regex.rule .comma ", ".toList) := by
  refine of_bare .comma (by decide) ?_
  rintro before _ ⟨front, back, isFront, isBack, rfl⟩
  have isComma : Bare [','] := by decide
  exact bare_append_iff.mpr ⟨bare_of_blank isFront, bare_append_iff.mpr ⟨isComma, bare_of_blank isBack⟩⟩

theorem classKeyword : KeepsAngles (Regex.rule .classKeyword []) := by
  refine of_bare .classKeyword (by decide) ?_
  rintro before _ ⟨-, word, isKeyword, blank, -, isBlank, rfl⟩
  have isWord : Bare word := by rcases List.mem_pair.mp isKeyword with rfl | rfl <;> decide
  exact bare_append_iff.mpr ⟨isWord, bare_of_blank isBlank⟩

theorem msvcAnonymousNamespace : KeepsAngles (Regex.rule .msvcAnonymousNamespace "(anonymous namespace)".toList) := by
  refine of_bare .msvcAnonymousNamespace (by decide) ?_
  rintro before _ rfl
  decide

theorem dropAbiNamespace : KeepsAngles dropAbiNamespace := by
  intro depth before text behind matched nested
  obtain rfl : "std::__cxx11::".toList ++ behind = text := List.isPrefixOf?_eq_some_iff_append_eq.mp matched
  have isAbi : Bare "std::__cxx11::".toList := by decide
  have isRest : Bare "td::".toList := by decide
  have isFirst : Bare ['s'] := by decide
  exact ⟨depth, (AnglesNested.bare_append_iff isRest).mpr ((AnglesNested.bare_append_iff isAbi).mp nested),
    fun rest' nested' => (AnglesNested.bare_append_iff isFirst).mpr nested'⟩

end KeepsAngles

namespace TemplateRule

variable {rule : TemplateRule} {name : OpenedName}

/-- Every match ends with the bracket of the name and what follows it there, and has no other bracket. -/
structure Opens (rule : TemplateRule) : Prop where
  uses : ∀ before used, rule.regex.Uses before used → ∃ head, Bare head ∧ used = head ++ '<' :: rule.name.tail
  tail : Bare rule.name.tail
  replacement : Bare rule.replacement

theorem exists_head (name : OpenedName) {scope : Text} (isScope : IsScope scope) :
    ∃ head, Bare head ∧ "std::".toList ++ (scope ++ name.text) = head ++ '<' :: name.tail := by
  have isStd : Bare "std::".toList := by decide
  have isWord : Bare name.word := bare_of_path fun c member => isPath_of_isWord (name.isWord c member)
  refine ⟨"std::".toList ++ (scope ++ name.word), ?_, by simp [OpenedName.text]⟩
  exact bare_append_iff.mpr ⟨isStd, bare_append_iff.mpr ⟨bare_of_path isScope.isPath, isWord⟩⟩

theorem opens_std {replacement : Text} (tail : Bare name.tail) (written : Bare replacement) :
    Opens ⟨name, .std name, replacement⟩ where
  uses := by
    rintro before _ ⟨scope, isScope, rfl⟩
    exact exists_head name isScope
  tail := tail
  replacement := written

theorem opens_argument {replacement : Text} (tail : Bare name.tail) (written : Bare replacement) :
    Opens ⟨name, .argument name, replacement⟩ where
  uses := by
    rintro before _ ⟨blank, scope, isBlank, isScope, rfl⟩
    obtain ⟨head, bare, split⟩ := exists_head name isScope
    have isComma : Bare [','] := by decide
    refine ⟨[','] ++ (blank ++ head),
      bare_append_iff.mpr ⟨isComma, bare_append_iff.mpr ⟨bare_of_blank isBlank, bare⟩⟩, ?_⟩
    rw [split]
    simp
  tail := tail
  replacement := written

/-- What a rule replaces goes up to the bracket that closes the one in its match. -/
theorem Opens.exists_closing (opens : rule.Opens) {depth : Nat} (before : Option Char) {text behind : Text}
    (matched : rule.regex.front before text = some behind) (nested : AnglesNested depth text) :
    ∃ head inner, Bare head ∧ text = head ++ '<' :: (rule.name.tail ++ behind) ∧
      behind = inner ++ '>' :: (rule.rule.resume behind).2 ∧ AnglesNested 0 (rule.name.tail ++ inner) ∧
      AnglesNested depth (rule.rule.resume behind).2 := by
  obtain ⟨used, uses, rfl⟩ := Regex.exists_used rule.regex before matched
  obtain ⟨head, bare, rfl⟩ := opens.uses before used uses
  rw [List.append_assoc, AnglesNested.bare_append_iff bare, List.cons_append, AnglesNested, Nested.opening_iff,
    Nested.plain_append_iff opens.tail] at nested
  obtain ⟨inner, split, within, later⟩ := Nested.exists_closing 0 nested
  have resumed : (rule.rule.resume behind).2 = afterClosing '<' '>' 1 behind := afterBracket_eq 1 behind
  rw [resumed]
  refine ⟨head, inner, bare, ?_, split, (AnglesNested.bare_append_iff opens.tail).mpr within, later⟩
  rw [List.append_assoc, List.cons_append]

theorem Opens.keepsAngles (opens : rule.Opens) : KeepsAngles rule.rule := by
  intro depth before text behind matched nested
  obtain ⟨head, inner, -, -, -, -, later⟩ := opens.exists_closing before matched nested
  exact ⟨depth, later, fun rest' nested' => (AnglesNested.bare_append_iff opens.replacement).mpr nested'⟩

theorem opens_of_mem (member : rule ∈ templateRules) : rule.Opens := by
  have isChar : Bare "char".toList := by decide
  have isNil : Bare [] := by decide
  simp only [templateRules, List.mem_cons, List.not_mem_nil, or_false] at member
  rcases member with rfl | rfl | rfl | rfl
  · exact opens_std isChar (by decide)
  · exact opens_std isChar (by decide)
  · exact opens_argument isNil isNil
  · exact opens_argument isNil isNil

end TemplateRule

section Symbols

variable {depth : Nat}

theorem beforeTemplates_nested {symbol : Text} (nested : AnglesNested depth symbol) :
    AnglesNested depth (beforeTemplates symbol) := by
  have folded := KeepsAngles.foldBrackets.scan none nested
  have spaced := KeepsAngles.comma.scan none folded
  have unkeyed := KeepsAngles.classKeyword.scan none spaced
  exact KeepsAngles.msvcAnonymousNamespace.scan none unkeyed

theorem templatePasses_nested {rules : List TemplateRule} (opens : ∀ rule ∈ rules, rule.Opens) {text : Text}
    (nested : AnglesNested depth text) :
    AnglesNested depth (applyTemplates rules text) ∧
      ∀ pass ∈ templatePasses rules text, pass.1.Opens ∧ AnglesNested depth pass.2 := by
  induction rules generalizing text with
  | nil => exact ⟨nested, nofun⟩
  | cons rule rest ih =>
    have first := opens rule List.mem_cons_self
    have next : AnglesNested depth (rule.apply text) := first.keepsAngles.scan none nested
    obtain ⟨last, others⟩ := ih (fun other member => opens other (List.mem_cons_of_mem rule member)) next
    refine ⟨last, fun pass member => ?_⟩
    rcases List.mem_cons.mp member with rfl | later
    · exact ⟨first, nested⟩
    · exact others pass later

/-- `prettify_symbol` keeps the angle brackets nested. Wherever one of the rules for templates
matches, what it replaces ends with the `>` that closes the `<` of the match, and what is behind
it is gone on with. -/
theorem prettifySymbol_nested (symbol : Text) (nested : AnglesNested 0 symbol) :
    AnglesNested 0 (prettifySymbol symbol) ∧
      ∀ pass ∈ templatePasses templateRules (beforeTemplates symbol), ∀ before text behind,
        pass.1.rule.Reached none pass.2 before text → pass.1.rule.front before text = some behind →
          ∃ head inner, Bare head ∧ text = head ++ '<' :: (pass.1.name.tail ++ behind) ∧
            behind = inner ++ '>' :: (pass.1.rule.resume behind).2 ∧ AnglesNested 0 (pass.1.name.tail ++ inner) ∧
            ∃ written, pass.1.apply pass.2 =
              written ++ (pass.1.replacement ++ pass.1.rule.scan none (pass.1.rule.resume behind).2) := by
  obtain ⟨last, passes⟩ := templatePasses_nested (fun _ member => TemplateRule.opens_of_mem member)
    (beforeTemplates_nested nested)
  constructor
  · rw [prettifySymbol_passes]
    generalize applyTemplates templateRules (beforeTemplates symbol) = text at last
    exact KeepsAngles.dropAbiNamespace.scan none last
  · intro pass member before text behind reached matched
    obtain ⟨opens, given⟩ := passes pass member
    obtain ⟨depth, here⟩ := opens.keepsAngles.reached given reached
    obtain ⟨head, inner, bare, split, closed, within, -⟩ := opens.exists_closing before matched here
    obtain ⟨written, reads⟩ := reached.exists_written
    rw [Rewriter.scan_of_some matched] at reads
    exact ⟨head, inner, bare, split, closed, within, written, reads⟩

theorem prettifySymbol_nested_at_string :
    AnglesNested 0 (prettifySymbol "a<std::basic_string<char, b<char> > >".toList) := by
  have kept := prettifySymbol_nested "a<std::basic_string<char, b<char> > >".toList (by decide)
  exact kept.1

end Symbols

end Cpptrace.Formatting
