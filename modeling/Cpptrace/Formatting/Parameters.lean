import Cpptrace.Formatting.Brackets
import Mathlib.Data.List.Infix

/-! The parameters of a function in the output of `prettify_symbol`.

A rule whose matches hold no comma rewrites every parameter alone. The rule for
commas does so as well, because no parameter ends in a space.
-/

set_option autoImplicit false

namespace Cpptrace.Formatting

open Cpptrace.Library
open Cpptrace.PruneSymbol (isSpace)

/-- Identifiers that are qualified with `::`. -/
inductive IsQualified : Text → Prop where
  | identifier (identifier : Identifier) : IsQualified identifier.text
  | qualified {path : Text} (identifier : Identifier) : IsQualified path →
      IsQualified (path ++ ("::".toList ++ identifier.text))

def joined (pieces : List Text) : Text :=
  ", ".toList.intercalate pieces

def suffixes : List Text :=
  [" const".toList, "*".toList, " *".toList, "*const".toList, " *const".toList, "&".toList, " &".toList]

inductive IsType : Text → Prop where
  | name {path : Text} : IsQualified path → IsType path
  | template {path : Text} {arguments : List Text} {closing : Text} : IsQualified path →
      (∀ argument ∈ arguments, IsType argument) → closing ∈ [">".toList, " >".toList] →
      IsType (path ++ '<' :: (joined arguments ++ closing))
  | suffixed {type suffix : Text} : IsType type → suffix ∈ suffixes → IsType (type ++ suffix)

def Place.start : Place := ⟨0, false⟩

def operators : List Text :=
  ["operator<".toList, "operator<<".toList, "operator<=".toList, "operator<<=".toList]

/-- The name of a function. Its brackets are closed in it, but for those of operators. -/
inductive IsName : Text → Prop where
  | closed {name : Text} : Part.name.Reads .start name → IsName name
  | operator {scope operator rest : Text} : Part.name.Reads .start scope → operator ∈ operators → IsName rest →
      IsName (scope ++ (operator ++ rest))

structure Signature where
  name : Text
  parameters : List Text
  isName : IsName name
  types : ∀ parameter ∈ parameters, IsType parameter

def symbolText (name : Text) (parameters : List Text) : Text :=
  name ++ '(' :: (joined parameters ++ [')'])

def parameterText (symbol : Text) : Text :=
  (symbol.dropLast.reverse.takeWhile (· ≠ '(')).reverse

def splitCommas : Nat → Text → List Text
  | _, [] => [[]]
  | depth, c :: rest =>
    if c = ',' ∧ depth = 0 then [] :: splitCommas 0 rest
    else
      match splitCommas (if c = '<' then depth + 1 else if c = '>' then depth - 1 else depth) rest with
      | [] => [[c]]
      | piece :: pieces => (c :: piece) :: pieces

def dropBlank : Text → Text
  | ' ' :: rest => rest
  | text => text

/-- The parameters of a symbol, without the blank behind a comma. -/
def parametersOf (symbol : Text) : List Text :=
  if parameterText symbol = [] then []
  else
    match splitCommas 0 (parameterText symbol) with
    | [] => []
    | piece :: pieces => piece :: pieces.map dropBlank

section Types

variable {path type : Text}

theorem IsQualified.chars (qualified : IsQualified path) : ∀ c ∈ path, isPath c = true := by
  induction qualified with
  | identifier identifier => exact fun c member => isPath_of_isWord (identifier.isWord c member)
  | qualified identifier _ ih =>
    have colons : ∀ c ∈ "::".toList, isPath c = true := by decide
    intro c member
    rcases List.mem_append.mp member with inPath | member
    · exact ih c inPath
    · exact (List.mem_append.mp member).elim (colons c) fun word => isPath_of_isWord (identifier.isWord c word)

/-- A qualified name begins with an identifier, and only `::` may follow that. -/
theorem IsQualified.begins (qualified : IsQualified path) :
    ∃ (identifier : Identifier) (tail : Text), path = identifier.text ++ tail ∧ ∀ c ∈ tail.head?, c = ':' := by
  induction qualified with
  | identifier identifier => exact ⟨identifier, [], (List.append_nil _).symm, nofun⟩
  | qualified identifier _ ih =>
    obtain ⟨first, tail, rfl, ends⟩ := ih
    refine ⟨first, tail ++ ("::".toList ++ identifier.text), List.append_assoc _ _ _, fun c head => ?_⟩
    cases tail with
    | nil => exact (Option.some.inj head).symm
    | cons d tail => exact ends c head

theorem IsQualified.ne_nil (qualified : IsQualified path) : path ≠ [] := by
  obtain ⟨identifier, tail, rfl, -⟩ := qualified.begins
  exact List.append_ne_nil_of_left_ne_nil identifier.nonempty tail

theorem IsType.begins (isType : IsType type) : ∃ path, IsQualified path ∧ BeginsWith path type := by
  induction isType with
  | name qualified => exact ⟨_, qualified, [], (List.append_nil _).symm, nofun⟩
  | template qualified _ _ => exact ⟨_, qualified, _, rfl, fun c first => Option.some.inj first ▸ rfl⟩
  | @suffixed type suffix _ isSuffix ih =>
    obtain ⟨path, qualified, rest, rfl, ends⟩ := ih
    refine ⟨path, qualified, _, List.append_assoc _ _ _, ?_⟩
    cases rest with
    | nil =>
      have outside : ∀ suffix ∈ suffixes, suffix.head?.any isPath = false := by decide
      intro c head
      have first := outside suffix isSuffix
      rwa [show suffix.head? = some c from head] at first
    | cons c rest => exact ends

theorem IsType.ends (isType : IsType type) : ∃ c, type.getLast? = some c ∧ isSpace c = false := by
  cases isType with
  | name qualified =>
    obtain ⟨c, last⟩ := Option.ne_none_iff_exists'.mp fun none' => qualified.ne_nil (List.getLast?_eq_none_iff.mp none')
    have path := qualified.chars c (List.mem_of_getLast? last)
    refine ⟨c, last, Bool.eq_false_iff.mpr fun space => ?_⟩
    rw [isPath_of_isSpace space] at path
    cases path
  | @template path arguments closing qualified _ isClosing =>
    have last : closing.getLast? = some '>' := by
      rcases List.mem_pair.mp isClosing with rfl | rfl <;> rfl
    have nonempty : closing ≠ [] := by
      rcases List.mem_pair.mp isClosing with rfl | rfl <;> decide
    refine ⟨'>', ?_, rfl⟩
    rw [← List.cons_append, ← List.append_assoc, List.getLast?_append_of_ne_nil _ nonempty, last]
  | @suffixed type suffix _ isSuffix =>
    have visible : ∀ suffix ∈ suffixes, suffix ≠ [] ∧ suffix.getLast?.any (fun c => !isSpace c) = true := by decide
    obtain ⟨nonempty, isVisible⟩ := visible suffix isSuffix
    obtain ⟨c, last, isVisible⟩ := (Option.any_eq_true _ _).mp isVisible
    exact ⟨c, by rw [List.getLast?_append_of_ne_nil _ nonempty, last], (Bool.not_eq_true' _).mp isVisible⟩

end Types

def following (pieces : List Text) : Text :=
  pieces.flatMap (", ".toList ++ ·)

theorem joined_cons (piece : Text) (pieces : List Text) : joined (piece :: pieces) = piece ++ following pieces := by
  induction pieces generalizing piece with
  | nil => simp [joined, following]
  | cons next pieces ih =>
    rw [joined, List.intercalate_cons_of_ne_nil (List.cons_ne_nil next pieces), ← joined, ih]
    simp [following]

namespace Part

variable {part : Part} {place : Place}

theorem run_append (text rest : Text) : part.run place (text ++ rest) = (part.run place text).bind (part.run · rest) :=
  List.foldlM_append

theorem run_joined {pieces : List Text} (comma : part.run place ", ".toList = some place)
    (same : ∀ piece ∈ pieces, part.run place piece = some place) : part.run place (joined pieces) = some place := by
  cases pieces with
  | nil => rfl
  | cons piece pieces =>
    rw [joined_cons, run_append, same piece List.mem_cons_self, Option.bind_some]
    have same' : ∀ next ∈ pieces, part.run place next = some place := fun next member =>
        same next (List.mem_cons_of_mem piece member)
    clear same
    induction pieces with
    | nil => rfl
    | cons next pieces ih =>
      rw [following, List.flatMap_cons, run_append, run_append, comma, Option.bind_some, same' next List.mem_cons_self]
      exact ih fun other member => same' other (List.mem_cons_of_mem next member)

end Part

/-- A type is read as a parameter, and as an argument inside of brackets. -/
theorem IsType.runs {type : Text} (isType : IsType type) :
    (∀ depth, Part.parameter.run ⟨depth + 1, true⟩ type = some ⟨depth + 1, true⟩) ∧
      ∃ named, Part.parameter.run .start type = some ⟨0, named⟩ := by
  induction isType with
  | name qualified =>
    have still (place : Place) : Part.parameter.run place _ = some place :=
      Part.run_still fun c member => Part.step_path (qualified.chars c member)
    exact ⟨fun depth => still _, false, still _⟩
  | @template path arguments closing qualified _ isClosing ih =>
    have still (place : Place) : Part.parameter.run place path = some place :=
      Part.run_still fun c member => Part.step_path (qualified.chars c member)
    have inside (depth : Nat) :
        Part.parameter.run ⟨depth + 1, true⟩ (joined arguments ++ closing) = some ⟨depth, true⟩ := by
      rw [Part.run_append, Part.run_joined rfl fun argument member => (ih argument member).1 depth, Option.bind_some]
      rcases List.mem_pair.mp isClosing with rfl | rfl <;> rfl
    constructor
    · intro depth
      rw [Part.run_append, still, Option.bind_some]
      exact inside (depth + 1)
    · refine ⟨true, ?_⟩
      rw [Part.run_append, still, Option.bind_some]
      exact inside 0
  -- no suffix has a bracket, so the depth stays
  | @suffixed type suffix _ isSuffix ih =>
    obtain ⟨inner, named, outer⟩ := ih
    constructor
    · intro depth
      rw [Part.run_append, inner, Option.bind_some]
      refine Part.run_still fun c member => Part.step_inner (.inr (Nat.succ_pos depth)) ?_
      have plain : ∀ suffix ∈ suffixes, ∀ c ∈ suffix, c ∉ ['<', '>', '(', ')', '`'] := by decide
      exact plain suffix isSuffix c member
    · rw [Part.run_append, outer, Option.bind_some]
      have ended : ∀ named : Bool, ∀ suffix ∈ suffixes, Part.parameter.run ⟨0, named⟩ suffix = some ⟨0, true⟩ := by
        decide
      exact ⟨true, ended named suffix isSuffix⟩

theorem IsType.reads {type : Text} (isType : IsType type) : Part.parameter.Reads .start type :=
  have ⟨_, ran⟩ := isType.runs.2
  ⟨_, ran, rfl⟩

section Separators

variable {regex : Regex} {rule : Rewriter Char} {part : Part} {place : Place} {before : Option Char}
    {text rest : Text} {c : Char}

/-- The text in front of a character that a match can only begin with. -/
theorem scan_append_text (reads : rule.front = regex.front) (readsOn : ReadsOn part rule) (visible : isSpace c = false)
    (fresh : ∀ before, regex.front before (c :: rest) = regex.front none (c :: rest))
    (inner : ∀ before d used, regex.Uses before (d :: used) → c ∉ used) (read : part.Reads place text) :
    rule.scan before (text ++ c :: rest) = rule.scan before text ++ rule.scan none (c :: rest) := by
  -- what is left behind a match can be read on, which the rule needs to stay within the text
  refine Rewriter.scan_append (fun text => ∃ place, part.Reads place text) (fun before => ?_) ?_ ?_ ?_ ⟨place, read⟩
  · exact Rewriter.scan_before (reads ▸ fresh before)
  · rintro d text ⟨place, read⟩
    obtain ⟨next, -, later⟩ := Part.reads_cons.mp read
    exact ⟨next, later⟩
  · intro before d text _
    rw [reads]
    show regex.front before ((d :: text) ++ c :: rest) = _
    refine regex.front_append (fun _ e first => Option.some.inj first ▸ visible) ?_
    intro piece behind nonempty split uses
    obtain ⟨e, piece, rfl⟩ := List.exists_cons_of_ne_nil nonempty
    obtain ⟨rfl, -⟩ := List.cons.inj split
    exact inner before d _ uses (List.mem_append_right text List.mem_cons_self)
  · rintro before text behind matched ⟨place, read⟩
    obtain ⟨next, later, -⟩ := readsOn.keeps matched read
    exact ⟨⟨next, later⟩, readsOn.within matched read (c :: rest)⟩

def Shuns (regex : Regex) (c : Char) : Prop :=
  ∀ before used, regex.Uses before used → c ∉ used

theorem Shuns.front_eq_none (shuns : Shuns regex c) (before : Option Char) : regex.front before (c :: rest) = none :=
  regex.front_cons_eq_none (fun _ uses => shuns before _ uses List.mem_cons_self) rest

theorem scan_append_separator (reads : rule.front = regex.front) (readsOn : ReadsOn part rule)
    (visible : isSpace c = false)
    (notWord : isWord c = false) (shuns : Shuns regex c) (read : part.Reads place text) :
    rule.scan before (text ++ c :: rest) = rule.scan before text ++ c :: rule.scan none rest := by
  rw [scan_append_text reads readsOn visible
    (fun before => (shuns.front_eq_none before).trans (shuns.front_eq_none none).symm)
    (fun before d used uses member => shuns before _ uses (List.mem_cons_of_mem d member)) read,
    regex.scan_separator reads notWord (fun before => shuns.front_eq_none before)]

theorem shuns_literal {literal : Text} {nonempty : literal ≠ []} (other : c ∉ literal) :
    Shuns (.literal literal nonempty) c :=
  fun _ _ same => Eq.symm same ▸ other

theorem shuns_comma (visible : isSpace c = false) (other : c ≠ ',') : Shuns .comma c := by
  rintro before used ⟨front, back, isFront, isBack, rfl⟩ member
  have blank {blank : Text} (isBlank : Blank blank) (member : c ∈ blank) : False := by
    rw [isBlank c member] at visible
    cases visible
  rcases List.mem_append.mp member with inFront | inBack
  · exact blank isFront inFront
  · exact (List.mem_cons.mp inBack).elim other (blank isBack)

theorem shuns_classKeyword (visible : isSpace c = false) (other : c ∉ "classstruct".toList) :
    Shuns .classKeyword c := by
  rintro before used ⟨-, word, isKeyword, blank, -, isBlank, rfl⟩
  exact not_mem_keyword isKeyword isBlank other visible

theorem not_mem_opened {name : OpenedName} {scope : Text} (isScope : IsScope scope)
    (path : ∀ c ∈ name.tail, isPath c = true)
    (outside : isPath c = false) (other : c ≠ '<') : c ∉ "std::".toList ++ (scope ++ name.text) := by
  intro member
  rw [OpenedName.text, ← List.append_assoc, ← List.append_assoc, List.append_assoc "std::".toList] at member
  rcases List.mem_append.mp member with inWord | inTail
  · exact not_mem_std isScope name.isWord outside inWord
  · exact (List.mem_cons.mp inTail).elim other fun inTail => ne_of_isPath (path c inTail) outside rfl

theorem shuns_std {name : OpenedName} (path : ∀ c ∈ name.tail, isPath c = true) (outside : isPath c = false)
    (other : c ≠ '<') :
    Shuns (.std name) c := by
  rintro before used ⟨scope, isScope, rfl⟩
  exact not_mem_opened isScope path outside other

theorem argument_inner {name : OpenedName} (path : ∀ c ∈ name.tail, isPath c = true) (outside : isPath c = false)
    (other : c ≠ '<') (visible : isSpace c = false) (before : Option Char) (d : Char) (used : Text)
    (uses : (Regex.argument name).Uses before (d :: used)) : d = ',' ∧ c ∉ used := by
  obtain ⟨blank, scope, isBlank, isScope, whole⟩ := uses
  obtain ⟨rfl, rfl⟩ := List.cons.inj whole
  refine ⟨rfl, fun member => ?_⟩
  rcases List.mem_append.mp member with inBlank | inName
  · rw [isBlank c inBlank] at visible
    cases visible
  · exact not_mem_opened isScope path outside other inName

theorem shuns_argument {name : OpenedName} (path : ∀ c ∈ name.tail, isPath c = true) (outside : isPath c = false)
    (other : c ≠ '<') (visible : isSpace c = false) (noComma : c ≠ ',') : Shuns (.argument name) c := by
  intro before used uses member
  obtain ⟨d, used, rfl⟩ := List.exists_cons_of_ne_nil (Regex.uses_ne_nil _ uses)
  obtain ⟨rfl, absent⟩ := argument_inner path outside other visible before d used uses
  exact (List.mem_cons.mp member).elim noComma absent

structure Skirts (regex : Regex) : Prop where
  starts : ∀ before c used, c ∈ "operator<=".toList → ¬ regex.Uses before (c :: used)
  leads : ∀ before front piece rest behind, piece ≠ [] → "operator<".toList ++ rest = piece ++ behind →
    ¬ regex.Uses before (front ++ piece)

theorem skirts_of_shuns (shuns : Shuns regex 'o')
    (starts : ∀ before c used, c ∈ "operator<=".toList → ¬ regex.Uses before (c :: used)) :
    Skirts regex where
  starts := starts
  leads := by
    intro before front piece rest behind nonempty split uses
    obtain ⟨c, piece, rfl⟩ := List.exists_cons_of_ne_nil nonempty
    obtain ⟨rfl, -⟩ := List.cons.inj split
    exact shuns before _ uses (List.mem_append_right front List.mem_cons_self)

theorem skirts_literal {c : Char} {literal : Text} (other : 'o' ∉ c :: literal) (first : c ∉ "operator<=".toList) :
    Skirts (.literal (c :: literal) (List.cons_ne_nil c literal)) :=
  skirts_of_shuns (shuns_literal other) fun _ _ _ member same => first ((List.cons.inj same).1 ▸ member)

theorem skirts_comma : Skirts .comma := by
  refine skirts_of_shuns (shuns_comma rfl (by decide)) ?_
  rintro before c used member ⟨front, back, isFront, -, whole⟩
  have visible : ∀ c ∈ "operator<=".toList, c ≠ ',' ∧ isSpace c = false := by decide
  cases front with
  | nil => exact (visible c member).1 (List.cons.inj whole).1
  | cons d front =>
    obtain ⟨rfl, -⟩ := List.cons.inj whole
    have space := isFront c List.mem_cons_self
    rw [(visible c member).2] at space
    cases space

theorem skirts_classKeyword : Skirts .classKeyword := by
  refine skirts_of_shuns (shuns_classKeyword rfl (by decide)) ?_
  rintro before c used member ⟨-, word, isKeyword, blank, -, -, whole⟩
  rcases List.mem_pair.mp isKeyword with rfl | rfl
  · exact absurd ((List.cons.inj whole).1 ▸ member) (by decide)
  · exact absurd ((List.cons.inj whole).1 ▸ member) (by decide)

theorem skirts_msvcAnonymousNamespace : Skirts .msvcAnonymousNamespace where
  starts _ _ _ member same := absurd ((List.cons.inj same).1 ▸ member) (by decide)
  leads := by
    intro before front piece rest behind nonempty split uses
    have same : front ++ piece = "`anonymous namespace'".toList := uses
    have isTail : piece ∈ "`anonymous namespace'".toList.tails := (List.mem_tails _ _).mpr ⟨front, same⟩
    have others : ∀ tail ∈ "`anonymous namespace'".toList.tails, tail.take 2 ∉ ["o".toList, "op".toList] := by decide
    refine others piece isTail ?_
    have split : 'o' :: 'p' :: ("erator<".toList ++ rest) = piece ++ behind := split
    match piece, nonempty with
    | [c], _ =>
      obtain ⟨rfl, -⟩ := List.cons.inj split
      exact List.mem_cons_self
    | c :: d :: piece, _ =>
      obtain ⟨rfl, later⟩ := List.cons.inj split
      obtain ⟨rfl, -⟩ := List.cons.inj later
      exact List.mem_cons_of_mem _ List.mem_cons_self

/-- A match that ends in a bracket and a tail would end with the name of its list. -/
theorem not_leads {name : OpenedName} {front before piece rest behind : Text} (noO : 'o' ∉ name.tail)
    (absent : '<' ∉ before)
    (apart : ¬ name.word <:+ "operator".toList) (apart' : ¬ "operator".toList <:+ name.word)
    (ends : name.word <:+ before)
    (nonempty : piece ≠ []) (split : "operator<".toList ++ rest = piece ++ behind) :
      front ++ piece ≠ before ++ '<' :: name.tail := by
  intro whole
  rcases List.append_eq_append_iff.mp whole with ⟨inner, rfl, rfl⟩ | ⟨inner, rfl, inTail⟩
  · -- its bracket is that of the operator, so the name of the list would end like the operator's
    rw [List.append_assoc, List.cons_append] at split
    have unopened : '<' ∉ inner := fun member => absent (List.mem_append_right front member)
    obtain ⟨rfl, -⟩ := first_unique (show '<' ∉ "operator".toList by decide) unopened split
    exact (List.suffix_or_suffix_of_suffix ends (List.suffix_append front _)).elim apart apart'
  · obtain ⟨c, piece, rfl⟩ := List.exists_cons_of_ne_nil nonempty
    obtain ⟨rfl, -⟩ := List.cons.inj split
    have member : 'o' ∈ '<' :: name.tail := inTail ▸ List.mem_append_right inner List.mem_cons_self
    exact (List.mem_cons.mp member).elim (fun same => absurd same (by decide)) noO

theorem skirts_std {name : OpenedName} (noO : 'o' ∉ name.tail) (apart : ¬ name.word <:+ "operator".toList)
    (apart' : ¬ "operator".toList <:+ name.word) : Skirts (.std name) where
  starts := by
    rintro before c used member ⟨scope, -, whole⟩
    exact absurd ((List.cons.inj whole).1 ▸ member) (by decide)
  leads := by
    rintro before front piece rest behind nonempty split ⟨scope, isScope, whole⟩
    have ends : name.word <:+ "std::".toList ++ (scope ++ name.word) :=
        (List.suffix_append scope _).trans (List.suffix_append _ _)
    refine not_leads noO (not_mem_std isScope name.isWord rfl) apart apart' ends nonempty split (whole.trans ?_)
    simp only [OpenedName.text, List.append_assoc]

theorem skirts_argument {name : OpenedName} (noO : 'o' ∉ name.tail) (apart : ¬ name.word <:+ "operator".toList)
    (apart' : ¬ "operator".toList <:+ name.word) : Skirts (.argument name) where
  starts := by
    rintro before c used member ⟨blank, scope, -, -, whole⟩
    exact absurd ((List.cons.inj whole).1 ▸ member) (by decide)
  leads := by
    rintro before front piece rest behind nonempty split ⟨blank, scope, isBlank, isScope, whole⟩
    have absent : '<' ∉ ',' :: (blank ++ ("std::".toList ++ (scope ++ name.word))) := by
      intro member
      rcases List.mem_append.mp ((List.mem_cons.mp member).resolve_left (by decide)) with inBlank | inName
      · exact absurd (isBlank '<' inBlank) (by decide)
      · exact not_mem_std isScope name.isWord rfl inName
    have ends : name.word <:+ ',' :: (blank ++ ("std::".toList ++ (scope ++ name.word))) :=
      ((List.suffix_append scope _).trans (List.suffix_append _ _)).trans
        ((List.suffix_append blank _).trans (List.suffix_cons _ _))
    refine not_leads noO absent apart apart' ends nonempty split (whole.trans ?_)
    simp only [OpenedName.text, List.append_assoc, List.cons_append]

structure Bounded (regex : Regex) (rule : Rewriter Char) : Prop where
  reads : rule.front = regex.front
  readsOn : ∀ part, ReadsOn part rule
  opening : Shuns regex '('
  closing : Shuns regex ')'
  skirts : Skirts regex

theorem bounded_foldBrackets : Bounded (.literal "> >".toList (by decide)) foldBrackets :=
  ⟨rfl, fun _ => readsOn_foldBrackets, shuns_literal (by decide), shuns_literal (by decide),
    skirts_literal (by decide) (by decide)⟩

theorem bounded_comma : Bounded .comma (Regex.rule .comma ", ".toList) :=
  ⟨rfl, fun _ => readsOn_comma, shuns_comma rfl (by decide), shuns_comma rfl (by decide), skirts_comma⟩

theorem bounded_classKeyword : Bounded .classKeyword (Regex.rule .classKeyword []) :=
  ⟨rfl, fun _ => readsOn_classKeyword, shuns_classKeyword rfl (by decide), shuns_classKeyword rfl (by decide),
    skirts_classKeyword⟩

theorem bounded_msvcAnonymousNamespace :
    Bounded .msvcAnonymousNamespace (Regex.rule .msvcAnonymousNamespace "(anonymous namespace)".toList) :=
  ⟨rfl, fun _ => readsOn_msvcAnonymousNamespace, shuns_literal (by decide), shuns_literal (by decide),
    skirts_msvcAnonymousNamespace⟩

theorem bounded_basicString : Bounded (.std basicString) (Regex.templateRule (.std basicString) "std::string".toList) :=
  ⟨rfl, fun _ => readsOn_std (by decide) (by decide), shuns_std (by decide) rfl (by decide),
    shuns_std (by decide) rfl (by decide),
    skirts_std (by decide) (by decide) (by decide)⟩

theorem bounded_basicStringView :
    Bounded (.std basicStringView) (Regex.templateRule (.std basicStringView) "std::string_view".toList) :=
  ⟨rfl, fun _ => readsOn_std (by decide) (by decide), shuns_std (by decide) rfl (by decide),
    shuns_std (by decide) rfl (by decide),
    skirts_std (by decide) (by decide) (by decide)⟩

theorem bounded_argument {name : OpenedName} (bare : name.tail = []) (apart : ¬ name.word <:+ "operator".toList)
    (apart' : ¬ "operator".toList <:+ name.word) :
      Bounded (.argument name) (Regex.templateRule (.argument name) []) := by
  have path : ∀ c ∈ name.tail, isPath c = true := bare ▸ nofun
  exact ⟨rfl, fun _ => readsOn_argument path, shuns_argument path rfl (by decide) rfl (by decide),
    shuns_argument path rfl (by decide) rfl (by decide), skirts_argument (bare ▸ List.not_mem_nil) apart apart'⟩

theorem bounded_dropAbiNamespace : Bounded (.literal "std::__cxx11::".toList (by decide)) dropAbiNamespace :=
  ⟨rfl, fun _ => readsOn_dropAbiNamespace, shuns_literal (by decide), shuns_literal (by decide),
    skirts_literal (by decide) (by decide)⟩

end Separators

def ending (parameters : List Text) : Text :=
  following parameters ++ [')']

theorem ending_cons (parameter : Text) (parameters : List Text) :
    ending (parameter :: parameters) = ',' :: ' ' :: (parameter ++ ending parameters) := by
  simp [ending, following]

section Lists

variable {regex : Regex} {rule : Rewriter Char}

/-- A rule whose matches hold no comma and no parenthesis rewrites every parameter alone. -/
theorem scan_list (bounded : Bounded regex rule) (comma : Shuns regex ',')
    (blank : ∀ before used, ¬ regex.Uses before (' ' :: used)) {parameter : Text}
    {parameters : List Text} (read : Part.parameter.Reads .start parameter)
    (later : ∀ next ∈ parameters, Part.parameter.Reads .start next) :
    rule.scan none (parameter ++ ending parameters) =
      rule.scan none parameter ++ ending (parameters.map (rule.scan none)) := by
  induction parameters generalizing parameter with
  | nil => exact scan_append_separator bounded.reads (bounded.readsOn _) rfl rfl bounded.closing read
  | cons next parameters ih =>
    have spaced : rule.scan none (' ' :: (next ++ ending parameters)) =
        ' ' :: rule.scan none (next ++ ending parameters) :=
      regex.scan_separator bounded.reads rfl (fun before => regex.front_cons_eq_none (blank before) _) none
    rw [ending_cons, scan_append_separator bounded.reads (bounded.readsOn _) rfl rfl comma read, spaced,
      List.map_cons, ending_cons,
      ih (later next List.mem_cons_self) fun other member => later other (List.mem_cons_of_mem next member)]

def EndsVisible (text : Text) : Prop :=
  ∀ c ∈ text.getLast?, isSpace c = false

theorem EndsVisible.tail {c : Char} {rest : Text} (visible : EndsVisible (c :: rest)) : EndsVisible rest := by
  intro d last
  refine visible d ?_
  rw [List.getLast?_cons, Option.mem_def.mp last]
  rfl

/-- Spaces in front of a comma between parameters would belong to its match. -/
theorem not_uses_comma {c : Char} {text part : Text} {front : Option Char} (visible : EndsVisible (c :: text)) :
    ¬ Regex.comma.Uses front (c :: text ++ ',' :: part) := by
  rintro ⟨blank, back, isBlank, isBack, whole⟩
  have noComma {blank : Text} (isBlank : Blank blank) :
      ',' ∉ blank := fun member => absurd (isBlank _ member) (by decide)
  -- the only comma of a match would be the text's own, or the match all spaces in front of it
  by_cases member : ',' ∈ c :: text
  · obtain ⟨first, between, same, absent⟩ := List.eq_append_cons_of_mem member
    rw [same, List.append_assoc, List.cons_append] at whole
    obtain ⟨-, rfl⟩ := first_unique absent (noComma isBlank) whole
    exact noComma isBack (List.mem_append_right between List.mem_cons_self)
  · obtain ⟨rfl, -⟩ := first_unique member (noComma isBlank) whole
    obtain ⟨d, last⟩ := Option.ne_none_iff_exists'.mp fun none' =>
        List.cons_ne_nil c text (List.getLast?_eq_none_iff.mp none')
    have space := isBlank d (List.mem_of_getLast? last)
    rw [visible d last] at space
    cases space

theorem scan_list_comma {parameter : Text} {parameters : List Text} (visible : EndsVisible parameter)
    (later : ∀ next ∈ parameters, EndsVisible next ∧ next ≠ [] ∧ Trimmed next) :
    replaceAll .comma ", ".toList (parameter ++ ending parameters) =
      replaceAll .comma ", ".toList parameter ++ ending (parameters.map (replaceAll .comma ", ".toList)) := by
  -- a parameter ends visibly, so no match reaches from it into the comma behind it
  have apart {text : Text} (visible : EndsVisible text) (c : Char) (rest : Text) (isEnd : c = ',' ∨ c = ')') :
      replaceAll .comma ", ".toList (text ++ c :: rest) =
        replaceAll .comma ", ".toList text ++ replaceAll .comma ", ".toList (c :: rest) := by
    refine Rewriter.scan_append EndsVisible (fun before => Rewriter.scan_before rfl) (fun _ _ => EndsVisible.tail) ?_
      ?_ visible
    · intro before d text visible
      show Regex.comma.front before ((d :: text) ++ c :: rest) = _
      have trimmed : Trimmed (c :: rest) := fun e first =>
          Option.some.inj first ▸ by rcases isEnd with rfl | rfl <;> rfl
      refine Regex.front_append _ (fun _ => trimmed) fun piece behind nonempty split => ?_
      obtain ⟨e, piece, rfl⟩ := List.exists_cons_of_ne_nil nonempty
      obtain ⟨rfl, -⟩ := List.cons.inj split
      rcases isEnd with rfl | rfl
      · exact not_uses_comma visible
      · exact fun uses => shuns_comma rfl (by decide) before _ uses (List.mem_append_right _ List.mem_cons_self)
    · intro before text behind matched visible
      obtain ⟨used, -, rfl⟩ := Regex.exists_used .comma before matched
      refine ⟨fun c last => visible c ?_, rfl⟩
      rw [List.getLast?_append_of_ne_nil _ fun empty => ?_]
      · exact last
      · rw [show behind = [] from empty] at last
        cases last
  induction parameters generalizing parameter with
  | nil => exact apart visible ')' [] (.inr rfl)
  | cons next parameters ih =>
    obtain ⟨visible', nonempty, trimmed⟩ := later next List.mem_cons_self
    have trimmed' : Trimmed (next ++ ending parameters) := by
      obtain ⟨c, rest, rfl⟩ := List.exists_cons_of_ne_nil nonempty
      exact trimmed
    have matched : Regex.comma.front none (',' :: ' ' :: (next ++ ending parameters)) =
        some (next ++ ending parameters) :=
      commaRe_eq_some_iff.mpr
        ⟨[], [' '], fun _ => nofun, fun _ member => List.mem_singleton.mp member ▸ rfl, trimmed', rfl⟩
    have separated : replaceAll .comma ", ".toList (',' :: ' ' :: (next ++ ending parameters)) =
        ',' :: ' ' :: replaceAll .comma ", ".toList (next ++ ending parameters) := Rewriter.scan_of_some matched
    rw [ending_cons, apart visible ',' _ (.inl rfl), separated, List.map_cons, ending_cons,
      ih visible' fun other member => later other (List.mem_cons_of_mem next member)]

end Lists

section Symbols

variable {regex : Regex} {rule : Rewriter Char} {name parameter text : Text} {parameters : List Text}

theorem symbolText_cons (name parameter : Text) (parameters : List Text) :
    symbolText name (parameter :: parameters) = name ++ '(' :: (parameter ++ ending parameters) := by
  rw [symbolText, joined_cons, ending, List.append_assoc]

theorem Bounded.scan_skirted (bounded : Bounded regex rule) {before : Option Char}
    (plain : ∀ c ∈ text, c ∈ "operator<=".toList)
    (rest : Text) : rule.scan before (text ++ rest) = text ++ rule.scan (text.getLast?.or before) rest := by
  induction text generalizing before with
  | nil => rfl
  | cons c text ih =>
    have unmatched : rule.front before (c :: (text ++ rest)) = none :=
      bounded.reads ▸ regex.front_cons_eq_none
        (fun used => bounded.skirts.starts before c used (plain c List.mem_cons_self)) _
    rw [List.cons_append, Rewriter.scan_cons_none unmatched, ih fun d member => plain d (List.mem_cons_of_mem c member),
      List.getLast?_cons]
    cases text.getLast? <;> rfl

/-- The name of an operator is copied, and what is in front of it and behind it rewritten alone. -/
theorem Bounded.scan_operator (bounded : Bounded regex rule) {operator : Text} (closes : Part.name.Reads .start name)
    (isOperator : operator ∈ operators) (rest : Text) :
    rule.scan none (name ++ (operator ++ rest)) = rule.scan none name ++ (operator ++ rule.scan none rest) := by
  have plain : ∀ operator ∈ operators, ∀ c ∈ operator, c ∈ "operator<=".toList := by decide
  have last : ∀ operator ∈ operators, operator.getLast? = some '<' ∨ operator.getLast? = some '=' := by decide
  have first : ∀ operator ∈ operators, operator = "operator<".toList ++ operator.drop 9 := by decide
  have copied (before : Option Char) : rule.scan before (operator ++ rest) = operator ++ rule.scan none rest := by
    rw [bounded.scan_skirted (plain operator isOperator)]
    congr 1
    refine Rewriter.scan_before (bounded.reads ▸ ?_)
    -- a match does not look behind the last sign of an operator
    rcases last operator isOperator with ends | ends
    · rw [ends, Option.some_or, regex.front_boundary rfl]
    · rw [ends, Option.some_or, regex.front_boundary rfl]
  rw [← copied none]
  refine Rewriter.scan_append (fun text => ∃ place, Part.name.Reads place text) (fun before => ?_) ?_ ?_ ?_ ⟨_, closes⟩
  · rw [copied, copied]
  · rintro c text ⟨place, read⟩
    obtain ⟨next, -, later⟩ := Part.reads_cons.mp read
    exact ⟨next, later⟩
  · intro before c text _
    rw [bounded.reads]
    show regex.front before ((c :: text) ++ (operator ++ rest)) = _
    have split : operator ++ rest = "operator<".toList ++ (operator.drop 9 ++ rest) := by
      rw [← List.append_assoc, ← first operator isOperator]
    refine regex.front_append (fun _ d head => ?_) fun piece behind nonempty split' => ?_
    · rw [split] at head
      exact Option.some.inj head ▸ rfl
    · exact bounded.skirts.leads before _ piece _ behind nonempty (split.symm.trans split')
  · rintro before text behind matched ⟨place, read⟩
    obtain ⟨next, later, -⟩ := (bounded.readsOn _).keeps matched read
    exact ⟨⟨next, later⟩, (bounded.readsOn _).within matched read _⟩

theorem Bounded.scan_name (bounded : Bounded regex rule) (isName : IsName name) (rest : Text) :
    rule.scan none (name ++ '(' :: rest) = rule.scan none name ++ '(' :: rule.scan none rest := by
  induction isName with
  | closed closes => exact scan_append_separator bounded.reads (bounded.readsOn _) rfl rfl bounded.opening closes
  | operator closes isOperator _ ih =>
    rw [List.append_assoc, List.append_assoc, bounded.scan_operator closes isOperator,
      bounded.scan_operator closes isOperator, ih,
      List.append_assoc, List.append_assoc]

theorem Bounded.isName (bounded : Bounded regex rule) (isName : IsName name) : IsName (rule.scan none name) := by
  induction isName with
  | closed closes => exact .closed ((bounded.readsOn _).scan closes)
  | operator closes isOperator _ ih =>
    rw [bounded.scan_operator closes isOperator]
    exact .operator ((bounded.readsOn _).scan closes) isOperator ih

theorem Bounded.scan_symbol (bounded : Bounded regex rule) (isName : IsName name)
    (list : ∀ parameter later, parameters = parameter :: later →
      rule.scan none (parameter ++ ending later) = rule.scan none parameter ++ ending (later.map (rule.scan none))) :
    rule.scan none (symbolText name parameters) =
      symbolText (rule.scan none name) (parameters.map (rule.scan none)) := by
  cases parameters with
  | nil =>
    have closed : rule.scan none [')'] = [')'] :=
      regex.scan_separator bounded.reads rfl (fun before => bounded.closing.front_eq_none before) none
    exact (bounded.scan_name isName [')']).trans (congrArg (rule.scan none name ++ '(' :: ·) closed)
  | cons parameter later =>
    rw [symbolText_cons, bounded.scan_name isName, list parameter later rfl, List.map_cons, symbolText_cons]

theorem not_mem_of_reads {c : Char} {place : Place} (rejected : ∀ place, Part.parameter.step place c = none)
    (read : Part.parameter.Reads place text) : c ∉ text := by
  induction text generalizing place with
  | nil => exact List.not_mem_nil
  | cons d text ih =>
    obtain ⟨next, step, later⟩ := Part.reads_cons.mp read
    intro member
    rcases List.mem_cons.mp member with rfl | inText
    · rw [rejected place] at step
      cases step
    · exact ih later inText

theorem not_mem_joined (read : ∀ parameter ∈ parameters, Part.parameter.Reads .start parameter) :
    '(' ∉ joined parameters := by
  have absent (parameter : Text) (member : parameter ∈ parameters) : '(' ∉ parameter :=
    not_mem_of_reads (fun place => by simp [Part.step]) (read parameter member)
  cases parameters with
  | nil => exact List.not_mem_nil
  | cons parameter later =>
    rw [joined_cons, following, List.mem_append, List.mem_flatMap]
    rintro (inFirst | ⟨next, member, inNext⟩)
    · exact absent parameter List.mem_cons_self inFirst
    · rcases List.mem_append.mp inNext with inComma | inNext
      · exact absurd inComma (by decide)
      · exact absent next (List.mem_cons_of_mem parameter member) inNext

theorem parameterText_symbolText (read : ∀ parameter ∈ parameters, Part.parameter.Reads .start parameter) :
    parameterText (symbolText name parameters) = joined parameters := by
  have inner : ∀ c ∈ (joined parameters).reverse, decide (c ≠ '(') = true := by
    intro c member
    refine decide_eq_true fun same => not_mem_joined read ?_
    exact same ▸ List.mem_reverse.mp member
  rw [parameterText, symbolText, ← List.cons_append, ← List.append_assoc, List.dropLast_concat, List.reverse_append,
    List.reverse_cons, List.append_assoc, List.takeWhile_append_of_pos inner]
  simp

/-- Splitting goes through a text that can be read as the reading does. -/
theorem splitCommas_append {place final : Place} (ran : Part.parameter.run place text = some final) (rest : Text) :
    ∃ piece pieces, splitCommas final.depth rest = piece :: pieces ∧
      splitCommas place.depth (text ++ rest) = (text ++ piece) :: pieces := by
  induction text generalizing place with
  | nil =>
    obtain rfl := Option.some.inj ran
    have nonempty : splitCommas place.depth rest ≠ [] := by
      cases rest with
      | nil => exact List.cons_ne_nil _ _
      | cons c rest =>
        rw [splitCommas]
        split
        · exact List.cons_ne_nil _ _
        · split <;> exact List.cons_ne_nil _ _
    obtain ⟨piece, pieces, split⟩ := List.exists_cons_of_ne_nil nonempty
    exact ⟨piece, pieces, split, split⟩
  | cons c text ih =>
    obtain ⟨next, step, later⟩ := Option.bind_eq_some_iff.mp ((List.foldlM_cons ..).symm.trans ran)
    obtain ⟨piece, pieces, split, whole⟩ := ih later
    refine ⟨piece, pieces, split, ?_⟩
    have inner : ¬ (c = ',' ∧ place.depth = 0) := by
      rintro ⟨rfl, outer⟩
      simp [Part.step, outer] at step
    have moved : next.depth = if c = '<' then place.depth + 1 else if c = '>' then place.depth - 1
        else place.depth := by
      unfold Part.step at step
      grind
    rw [List.cons_append, splitCommas, if_neg inner, ← moved, whole]
    rfl

theorem splitCommas_joined (read : Part.parameter.Reads .start parameter)
    (later : ∀ next ∈ parameters, Part.parameter.Reads .start next) :
    splitCommas 0 (parameter ++ following parameters) = parameter :: parameters.map (' ' :: ·) := by
  induction parameters generalizing parameter with
  | nil =>
    obtain ⟨⟨depth, named⟩, ran, rfl⟩ := read
    obtain ⟨piece, pieces, split, whole⟩ := splitCommas_append ran []
    obtain ⟨rfl, rfl⟩ := List.cons.inj split
    exact whole.trans (congrArg (· :: []) (List.append_nil parameter))
  | cons next parameters ih =>
    obtain ⟨⟨depth, named⟩, ran, rfl⟩ := read
    obtain ⟨piece, pieces, split, whole⟩ := splitCommas_append ran (following (next :: parameters))
    have rest := ih (later next List.mem_cons_self) fun other member => later other (List.mem_cons_of_mem next member)
    have spaced : splitCommas 0 (following (next :: parameters)) =
        [] :: (' ' :: next) :: parameters.map (' ' :: ·) := by
      show [] :: splitCommas 0 (' ' :: (next ++ following parameters)) = _
      rw [splitCommas, if_neg (by decide)]
      show [] :: (match splitCommas 0 (next ++ following parameters) with | [] => _ | piece :: pieces => _) = _
      rw [rest]
    obtain ⟨rfl, rfl⟩ := List.cons.inj (split.symm.trans spaced)
    rwa [List.append_nil] at whole

theorem parametersOf_symbolText (read : ∀ parameter ∈ parameters, Part.parameter.Reads .start parameter) :
    parametersOf (symbolText name parameters) = if joined parameters = [] then [] else parameters := by
  rw [parametersOf, parameterText_symbolText read]
  split
  · rfl
  · next nonempty =>
    cases parameters with
    | nil => exact absurd rfl nonempty
    | cons parameter parameters =>
      rw [joined_cons, splitCommas_joined (read parameter List.mem_cons_self) fun next member =>
        read next (List.mem_cons_of_mem parameter member)]
      simp [Function.comp_def, dropBlank]

end Symbols

end Cpptrace.Formatting
