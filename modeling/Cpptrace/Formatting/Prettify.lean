import Cpptrace.PruneSymbol.Token
import Cpptrace.Library.Rewriting
import Mathlib.Data.List.TakeWhile

/-! `prettify_symbol` and the functions of `replace_all.cpp` that it calls.

The text in front of the position where a replacement loop goes on is written and
not looked at again, so the loops work on the text from that position on.
-/

set_option autoImplicit false

namespace Cpptrace.Formatting

open Cpptrace.Library
open Cpptrace.PruneSymbol (isSpace)

/-- Deciding this tries the characters of the text, and not all that there are. -/
instance (priority := 2000) decidableMem (text : Text) (p : Char → Prop) [DecidablePred p] :
    Decidable (∀ c ∈ text, p c) :=
  List.decidableBAll p text

/-- The class `[a-zA-Z0-9_]`, also what `\b` tells apart. -/
def isWord (c : Char) : Bool := c.isAlphanum || c = '_'

/-- `\s*,\s*` -/
def commaRe (text : Text) : Option Text :=
  match text.dropWhile isSpace with
  | ',' :: rest => some (rest.dropWhile isSpace)
  | _ => none

/-- `\s+` -/
def spacesRe : Text → Option Text
  | c :: rest => if isSpace c then some (rest.dropWhile isSpace) else none
  | [] => none

/-- `\b(class|struct)\s+`, with the character in front of the text. -/
def classRe (before : Option Char) (text : Text) : Option Text :=
  if before.any isWord then none
  else (("class".toList.isPrefixOf? text).or ("struct".toList.isPrefixOf? text)).bind spacesRe

/-- `[a-zA-Z0-9_]+::` and a name. -/
def nestedRe (name text : Text) : Option Text :=
  if text.takeWhile isWord = [] then none else ("::".toList ++ name).isPrefixOf? (text.dropWhile isWord)

/-- `std(::[a-zA-Z0-9_]+)?::` and a name. -/
def stdRe (name text : Text) : Option Text :=
  ("std::".toList.isPrefixOf? text).bind fun rest => (nestedRe name rest).or (name.isPrefixOf? rest)

/-- `,\s*std(::[a-zA-Z0-9_]+)?::` and a name. -/
def argumentRe (name : Text) : Text → Option Text
  | ',' :: rest => stdRe name (rest.dropWhile isSpace)
  | _ => none

/-! What the expressions match. -/

def Blank (text : Text) : Prop := ∀ c ∈ text, isSpace c = true

/-- A greedy `\s*` leaves no space behind. -/
def Trimmed (text : Text) : Prop := ∀ c ∈ text.head?, isSpace c = false

def isPath (c : Char) : Bool := isWord c || c = ':'

theorem isPath_of_isWord {c : Char} (word : isWord c = true) : isPath c = true := by
  rw [isPath, word, Bool.true_or]

theorem isPath_of_isSpace {c : Char} (space : isSpace c = true) : isPath c = false := by
  simp only [isSpace, Bool.or_eq_true, decide_eq_true_eq] at space
  rcases space with ((((rfl | rfl) | rfl) | rfl) | rfl) | rfl <;> decide

theorem ne_of_isPath {c d : Char} (path : isPath c = true) (other : isPath d = false) : c ≠ d := by
  rintro rfl
  rw [path] at other
  cases other

/-- What `([a-zA-Z0-9_]+::)?` matches. -/
def IsScope (scope : Text) : Prop :=
  scope = [] ∨ ∃ inner, inner ≠ [] ∧ (∀ c ∈ inner, isWord c = true) ∧ scope = inner ++ "::".toList

theorem IsScope.isPath {scope : Text} (isScope : IsScope scope) : ∀ c ∈ scope, isPath c = true := by
  rcases isScope with rfl | ⟨inner, -, isInner, rfl⟩
  · exact nofun
  · intro c member
    rcases List.mem_append.mp member with word | colon
    · exact isPath_of_isWord (isInner c word)
    · obtain rfl := (List.mem_replicate.mp (show c ∈ List.replicate 2 ':' from colon)).2
      rfl

def IsOpened (name : Text) : Prop :=
  ∃ word rest, (∀ c ∈ word, isWord c = true) ∧ name = word ++ '<' :: rest

section Matches

variable {text behind name : Text} {before : Option Char}

theorem dropWhile_isSpace (blank : Text) (isBlank : Blank blank) (trimmed : Trimmed behind) :
    (blank ++ behind).dropWhile isSpace = behind := by
  rw [List.dropWhile_append_of_pos isBlank]
  cases behind with
  | nil => rfl
  | cons c rest => rw [List.dropWhile_cons_of_neg (by simp [trimmed c rfl])]

theorem exists_blank (text : Text) :
    ∃ blank, Blank blank ∧ Trimmed (text.dropWhile isSpace) ∧ text = blank ++ text.dropWhile isSpace := by
  refine ⟨text.takeWhile isSpace, fun c member => List.mem_takeWhile_imp member, fun c first => ?_,
    List.takeWhile_append_dropWhile.symm⟩
  have stops := List.head?_dropWhile_not isSpace text
  rw [Option.mem_def.mp first] at stops
  simpa using stops

theorem commaRe_eq_some_iff : commaRe text = some behind ↔
    ∃ front back, Blank front ∧ Blank back ∧ Trimmed behind ∧ text = front ++ ',' :: back ++ behind := by
  constructor
  · intro matched
    unfold commaRe at matched
    split at matched
    · next rest spaced =>
      obtain ⟨front, isFront, -, whole⟩ := exists_blank text
      obtain ⟨back, isBack, trimmed, split⟩ := exists_blank rest
      cases matched
      refine ⟨front, back, isFront, isBack, trimmed, ?_⟩
      rw [List.append_assoc, List.cons_append, ← split, ← spaced]
      exact whole
    · cases matched
  · rintro ⟨front, back, isFront, isBack, trimmed, rfl⟩
    have comma : Trimmed (',' :: (back ++ behind)) := fun c first => by
      obtain rfl := Option.some.inj first
      decide
    unfold commaRe
    rw [List.append_assoc, List.cons_append, dropWhile_isSpace front isFront comma]
    exact congrArg some (dropWhile_isSpace back isBack trimmed)

theorem spacesRe_eq_some_iff : spacesRe text = some behind ↔
    ∃ blank, blank ≠ [] ∧ Blank blank ∧ Trimmed behind ∧ text = blank ++ behind := by
  constructor
  · intro matched
    cases text with
    | nil => cases matched
    | cons c rest =>
      rw [spacesRe] at matched
      split at matched
      · next isBlank =>
        obtain ⟨back, isBack, trimmed, split⟩ := exists_blank rest
        cases matched
        refine ⟨c :: back, List.cons_ne_nil _ _, ?_, trimmed, ?_⟩
        · exact fun d member => (List.mem_cons.mp member).elim (fun same => same ▸ isBlank) (isBack d)
        · rw [List.cons_append, ← split]
      · cases matched
  · rintro ⟨blank, nonempty, isBlank, trimmed, rfl⟩
    obtain ⟨c, back, rfl⟩ := List.exists_cons_of_ne_nil nonempty
    rw [List.cons_append, spacesRe, if_pos (isBlank c List.mem_cons_self),
      dropWhile_isSpace back (fun d member => isBlank d (List.mem_cons_of_mem c member)) trimmed]

theorem isPrefixOf?_class_of_struct {rest : Text} (text : Text) (found : "struct".toList.isPrefixOf? text = some rest) :
    "class".toList.isPrefixOf? text = none := by
  rw [← List.isPrefixOf?_eq_some_iff_append_eq.mp found]
  rfl

theorem classRe_eq_some_iff : classRe before text = some behind ↔
    before.any isWord = false ∧ ∃ word ∈ ["class".toList, "struct".toList], ∃ blank, blank ≠ [] ∧ Blank blank ∧
      Trimmed behind ∧ text = word ++ (blank ++ behind) := by
  unfold classRe
  cases before.any isWord with
  | true => simp
  | false =>
    simp only [Bool.false_eq_true, if_false, true_and, Option.bind_eq_some_iff, spacesRe_eq_some_iff]
    constructor
    · rintro ⟨rest, found, blank, nonempty, isBlank, trimmed, rfl⟩
      rcases Option.or_eq_some_iff.mp found with isClass | ⟨-, isStruct⟩
      · exact ⟨_, List.mem_cons_self, blank, nonempty, isBlank, trimmed,
          (List.isPrefixOf?_eq_some_iff_append_eq.mp isClass).symm⟩
      · exact ⟨_, List.mem_cons_of_mem _ List.mem_cons_self, blank, nonempty, isBlank, trimmed,
          (List.isPrefixOf?_eq_some_iff_append_eq.mp isStruct).symm⟩
    · rintro ⟨word, isKeyword, blank, nonempty, isBlank, trimmed, rfl⟩
      refine ⟨_, ?_, blank, nonempty, isBlank, trimmed, rfl⟩
      have found : word.isPrefixOf? (word ++ (blank ++ behind)) = some (blank ++ behind) :=
        List.isPrefixOf?_eq_some_iff_append_eq.mpr rfl
      rcases List.mem_pair.mp isKeyword with rfl | rfl
      · rw [found, Option.some_or]
      · rw [isPrefixOf?_class_of_struct _ found, found, Option.none_or]

theorem takeWhile_isWord {word : Text} (behind : Text) (isAll : ∀ c ∈ word, isWord c = true)
    (ends : ∀ c ∈ behind.head?, isWord c = false) :
    (word ++ behind).takeWhile isWord = word ∧ (word ++ behind).dropWhile isWord = behind := by
  rw [List.takeWhile_append_of_pos isAll, List.dropWhile_append_of_pos isAll]
  cases behind with
  | nil => exact ⟨List.append_nil word, rfl⟩
  | cons c rest =>
    have stops : ¬ isWord c = true := by simp [ends c rfl]
    rw [List.takeWhile_cons_of_neg stops, List.dropWhile_cons_of_neg stops]
    exact ⟨List.append_nil word, rfl⟩

theorem nestedRe_eq_some_iff : nestedRe name text = some behind ↔
    ∃ inner, inner ≠ [] ∧ (∀ c ∈ inner, isWord c = true) ∧ text = inner ++ ("::".toList ++ (name ++ behind)) := by
  unfold nestedRe
  constructor
  · intro matched
    split at matched
    · cases matched
    · next nonempty =>
      refine ⟨text.takeWhile isWord, nonempty, fun c member => List.mem_takeWhile_imp member, ?_⟩
      rw [← List.append_assoc "::".toList, List.isPrefixOf?_eq_some_iff_append_eq.mp matched,
        List.takeWhile_append_dropWhile]
  · rintro ⟨inner, nonempty, isInner, rfl⟩
    obtain ⟨whole, rest⟩ := takeWhile_isWord ("::".toList ++ (name ++ behind)) isInner
      fun c first => Option.some.inj first ▸ rfl
    rw [whole, rest, if_neg nonempty, List.isPrefixOf?_eq_some_iff_append_eq, List.append_assoc]

theorem nestedRe_opened (opened : IsOpened name) (behind : Text) : nestedRe name (name ++ behind) = none := by
  obtain ⟨word, rest, isAll, rfl⟩ := opened
  obtain ⟨-, stops⟩ := takeWhile_isWord ('<' :: (rest ++ behind)) isAll fun c first => Option.some.inj first ▸ rfl
  unfold nestedRe
  rw [List.append_assoc, List.cons_append, stops]
  exact ite_self none

theorem stdRe_eq_some_iff (opened : IsOpened name) : stdRe name text = some behind ↔
    ∃ scope, IsScope scope ∧ text = "std::".toList ++ (scope ++ (name ++ behind)) := by
  unfold stdRe
  simp only [Option.bind_eq_some_iff, List.isPrefixOf?_eq_some_iff_append_eq, Option.or_eq_some_iff,
    nestedRe_eq_some_iff]
  constructor
  · rintro ⟨rest, rfl, ⟨inner, nonempty, isInner, rfl⟩ | ⟨-, rfl⟩⟩
    · exact ⟨inner ++ "::".toList, .inr ⟨inner, nonempty, isInner, rfl⟩, by rw [List.append_assoc inner]⟩
    · exact ⟨[], .inl rfl, rfl⟩
  · rintro ⟨scope, rfl | ⟨inner, nonempty, isInner, rfl⟩, rfl⟩
    · exact ⟨_, rfl, .inr ⟨nestedRe_opened opened behind, rfl⟩⟩
    · exact ⟨_, rfl, .inl ⟨inner, nonempty, isInner, List.append_assoc _ _ _⟩⟩

theorem argumentRe_eq_some_iff (opened : IsOpened name) : argumentRe name text = some behind ↔
    ∃ blank scope, Blank blank ∧ IsScope scope ∧
      text = ',' :: (blank ++ ("std::".toList ++ (scope ++ (name ++ behind)))) := by
  constructor
  · intro matched
    unfold argumentRe at matched
    split at matched
    · next rest =>
      obtain ⟨blank, isBlank, -, split⟩ := exists_blank rest
      obtain ⟨scope, isScope, found⟩ := (stdRe_eq_some_iff opened).mp matched
      exact ⟨blank, scope, isBlank, isScope, by rw [← found, ← split]⟩
    · cases matched
  · rintro ⟨blank, scope, isBlank, isScope, rfl⟩
    have trimmed : Trimmed ("std::".toList ++ (scope ++ (name ++ behind))) := fun c first => Option.some.inj first ▸ rfl
    rw [argumentRe, dropWhile_isSpace blank isBlank trimmed]
    exact (stdRe_eq_some_iff opened).mpr ⟨scope, isScope, rfl⟩

end Matches

/-- The text behind the bracket that closes `depth` open ones, or nothing if none does. -/
def afterBracket : Nat → Text → Text
  | 0, text => text
  | _ + 1, [] => []
  | depth + 1, c :: rest =>
    if c = '<' then afterBracket (depth + 2) rest
    else if c = '>' then afterBracket depth rest
    else afterBracket (depth + 1) rest

theorem afterBracket_zero (text : Text) : afterBracket 0 text = text := by
  cases text <;> rfl

theorem length_afterBracket_le (depth : Nat) (text : Text) : (afterBracket depth text).length ≤ text.length := by
  induction text generalizing depth with
  | nil => cases depth <;> exact Nat.le_refl _
  | cons c rest ih =>
    cases depth with
    | zero => exact Nat.le_refl _
    | succ depth =>
      rw [afterBracket]
      split
      · exact Nat.le_succ_of_le (ih _)
      · split <;> exact Nat.le_succ_of_le (ih _)

/-- A regular expression tried at one place: the character in front of the place and
the text from there on give the text behind the match. `Uses` are the texts that it
matches, and it is `greedy` if it takes all spaces that follow. -/
structure Regex where
  front : Option Char → Text → Option Text
  Uses : Option Char → Text → Prop
  greedy : Bool
  front_eq_some_iff : ∀ {before text behind}, front before text = some behind ↔
    ∃ used, Uses before used ∧ (greedy = true → Trimmed behind) ∧ text = used ++ behind
  uses_ne_nil : ∀ {before used}, Uses before used → used ≠ []
  boundary : ∀ {c used}, isWord c = false → (Uses (some c) used ↔ Uses none used)

structure OpenedName where
  word : Text
  tail : Text
  isWord : ∀ c ∈ word, isWord c = true

def OpenedName.text (name : OpenedName) : Text := name.word ++ '<' :: name.tail

theorem OpenedName.opened (name : OpenedName) : IsOpened name.text :=
  ⟨name.word, name.tail, name.isWord, rfl⟩

namespace Regex

def literal (text : Text) (nonempty : text ≠ []) : Regex where
  front _ := text.isPrefixOf?
  Uses _ used := used = text
  greedy := false
  front_eq_some_iff := by
    intro before text' behind
    rw [List.isPrefixOf?_eq_some_iff_append_eq]
    constructor
    · rintro rfl
      exact ⟨text, rfl, nofun, rfl⟩
    · rintro ⟨used, rfl, -, rfl⟩
      rfl
  uses_ne_nil same := same ▸ nonempty
  boundary _ := Iff.rfl

def comma : Regex where
  front _ := commaRe
  Uses _ used := ∃ front back, Blank front ∧ Blank back ∧ used = front ++ ',' :: back
  greedy := true
  front_eq_some_iff := by
    intro before text behind
    rw [commaRe_eq_some_iff]
    constructor
    · rintro ⟨front, back, isFront, isBack, trimmed, rfl⟩
      exact ⟨_, ⟨front, back, isFront, isBack, rfl⟩, fun _ => trimmed, rfl⟩
    · rintro ⟨_, ⟨front, back, isFront, isBack, rfl⟩, trimmed, rfl⟩
      exact ⟨front, back, isFront, isBack, trimmed rfl, rfl⟩
  uses_ne_nil := by
    rintro before _ ⟨front, back, -, -, rfl⟩
    simp
  boundary _ := Iff.rfl

def classKeyword : Regex where
  front := classRe
  Uses before used := before.any isWord = false ∧
    ∃ word ∈ ["class".toList, "struct".toList], ∃ blank, blank ≠ [] ∧ Blank blank ∧ used = word ++ blank
  greedy := true
  front_eq_some_iff := by
    intro before text behind
    rw [classRe_eq_some_iff]
    constructor
    · rintro ⟨boundary, word, isKeyword, blank, nonempty, isBlank, trimmed, rfl⟩
      exact ⟨_, ⟨boundary, word, isKeyword, blank, nonempty, isBlank, rfl⟩, fun _ => trimmed,
        (List.append_assoc _ _ _).symm⟩
    · rintro ⟨_, ⟨boundary, word, isKeyword, blank, nonempty, isBlank, rfl⟩, trimmed, rfl⟩
      exact ⟨boundary, word, isKeyword, blank, nonempty, isBlank, trimmed rfl, List.append_assoc _ _ _⟩
  uses_ne_nil := by
    rintro before _ ⟨-, word, -, blank, nonempty, -, rfl⟩
    exact List.append_ne_nil_of_right_ne_nil word nonempty
  boundary notWord := by simp [notWord]

def msvcAnonymousNamespace : Regex :=
  literal "`anonymous namespace'".toList (by decide)

def std (name : OpenedName) : Regex where
  front _ := stdRe name.text
  Uses _ used := ∃ scope, IsScope scope ∧ used = "std::".toList ++ (scope ++ name.text)
  greedy := false
  front_eq_some_iff := by
    intro before text behind
    rw [stdRe_eq_some_iff name.opened]
    constructor
    · rintro ⟨scope, isScope, rfl⟩
      exact ⟨_, ⟨scope, isScope, rfl⟩, nofun, by simp⟩
    · rintro ⟨_, ⟨scope, isScope, rfl⟩, -, rfl⟩
      exact ⟨scope, isScope, by simp⟩
  uses_ne_nil := by
    rintro before _ ⟨scope, -, rfl⟩
    exact List.cons_ne_nil _ _
  boundary _ := Iff.rfl

def argument (name : OpenedName) : Regex where
  front _ := argumentRe name.text
  Uses _ used := ∃ blank scope, Blank blank ∧ IsScope scope ∧
    used = ',' :: (blank ++ ("std::".toList ++ (scope ++ name.text)))
  greedy := false
  front_eq_some_iff := by
    intro before text behind
    rw [argumentRe_eq_some_iff name.opened]
    constructor
    · rintro ⟨blank, scope, isBlank, isScope, rfl⟩
      exact ⟨_, ⟨blank, scope, isBlank, isScope, rfl⟩, nofun, by simp⟩
    · rintro ⟨_, ⟨blank, scope, isBlank, isScope, rfl⟩, -, rfl⟩
      exact ⟨blank, scope, isBlank, isScope, by simp⟩
  uses_ne_nil := by
    rintro before _ ⟨blank, scope, -, -, rfl⟩
    exact List.cons_ne_nil _ _
  boundary _ := Iff.rfl

variable (regex : Regex) {before : Option Char} {text behind : Text}

theorem consumes (matched : regex.front before text = some behind) : behind.length < text.length := by
  obtain ⟨used, uses, -, rfl⟩ := regex.front_eq_some_iff.mp matched
  have positive := List.length_pos_of_ne_nil (regex.uses_ne_nil uses)
  rw [List.length_append]
  omega

/-- How `replace_all` goes on behind a match. -/
def rule (replacement : Text) : Rewriter Char where
  front := regex.front
  resume behind := (replacement, behind)
  shrinks := regex.consumes

/-- How `replace_all_template` goes on: what the match leaves open is passed. -/
def templateRule (replacement : Text) : Rewriter Char where
  front := regex.front
  resume behind := (replacement, afterBracket 1 behind)
  shrinks matched := Nat.lt_of_le_of_lt (length_afterBracket_le 1 _) (regex.consumes matched)

end Regex

/-- How `replace_all_dynamic` goes on: one character further, in the replacement. -/
def dynamicRule (substr replacement : Text) (nonempty : substr ≠ []) (folds : replacement.length ≤ substr.length) :
    Rewriter Char where
  front := (Regex.literal substr nonempty).front
  resume behind := ((replacement ++ behind).take 1, (replacement ++ behind).drop 1)
  shrinks matched := by
    have positive := List.length_pos_of_ne_nil nonempty
    rw [← List.isPrefixOf?_eq_some_iff_append_eq.mp matched, List.length_drop, List.length_append, List.length_append]
    omega

def replaceAll (regex : Regex) (replacement text : Text) : Text :=
  (regex.rule replacement).scan none text

def replaceAllTemplate (regex : Regex) (replacement text : Text) : Text :=
  (regex.templateRule replacement).scan none text

section Names

def basicString : OpenedName := ⟨"basic_string".toList, "char".toList, by decide⟩

def basicStringView : OpenedName := ⟨"basic_string_view".toList, "char".toList, by decide⟩

def allocator : OpenedName := ⟨"allocator".toList, [], by decide⟩

def defaultDelete : OpenedName := ⟨"default_delete".toList, [], by decide⟩

end Names

/-- `> > -> >> replacement` -/
def foldBrackets : Rewriter Char :=
  dynamicRule "> >".toList ">>".toList (by decide) (by decide)

/-- `replace std::__cxx11 -> std:: for gcc dual abi` -/
def dropAbiNamespace : Rewriter Char :=
  dynamicRule "std::__cxx11::".toList "std::".toList (by decide) (by decide)

def prettifySymbol (symbol : Text) : Text :=
  let symbol := foldBrackets.scan none symbol
  let symbol := replaceAll .comma ", ".toList symbol
  let symbol := replaceAll .classKeyword [] symbol
  let symbol := replaceAll .msvcAnonymousNamespace "(anonymous namespace)".toList symbol
  let symbol := replaceAllTemplate (.std basicString) "std::string".toList symbol
  let symbol := replaceAllTemplate (.std basicStringView) "std::string_view".toList symbol
  let symbol := replaceAllTemplate (.argument allocator) [] symbol
  let symbol := replaceAllTemplate (.argument defaultDelete) [] symbol
  dropAbiNamespace.scan none symbol

example : prettifySymbol "a<b<std::basic_string<char, x> > >(class c ,std::__cxx11::d)".toList =
    "a<b<std::string>>(c, std::d)".toList := by
  decide +kernel

end Cpptrace.Formatting
