import Cpptrace.Formatting.Parameters

/-! Default arguments between the parameters of a function.

The two rules that drop default arguments do not tell the commas of argument lists
from those between parameters: a parameter that looks like a default argument goes
with the comma in front of it. No other rule changes which parameters look so.
-/

set_option autoImplicit false

namespace Cpptrace.Formatting

open Cpptrace.Library
open Cpptrace.PruneSymbol (isSpace)

/-- A type that looks like `std::allocator<..>` or `std::default_delete<..>`. -/
def LooksDefaulted (type : Text) : Prop :=
  (stdRe allocator.text type).isSome ∨ (stdRe defaultDelete.text type).isSome

def lead (text : Text) : Option Text :=
  if '<' ∈ text then some (text.takeWhile (· ≠ '<')) else none

section Lead

variable {text front : Text}

theorem lead_eq_none_iff : lead text = none ↔ '<' ∉ text := by
  unfold lead
  split
  · next member => exact ⟨nofun, fun absent => absurd member absent⟩
  · next absent => exact ⟨fun _ => absent, fun _ => rfl⟩

theorem lead_append (absent : '<' ∉ front) (arguments : Text) : lead (front ++ '<' :: arguments) = some front := by
  have before : ∀ c ∈ front, decide (c ≠ '<') = true := fun c member =>
      decide_eq_true fun same => absent (same ▸ member)
  rw [lead, if_pos (List.mem_append_right front List.mem_cons_self), List.takeWhile_append_of_pos before]
  simp

theorem lead_eq_some_iff : lead text = some front ↔ '<' ∉ front ∧ ∃ arguments, text = front ++ '<' :: arguments := by
  constructor
  · intro led
    have member : '<' ∈ text := by
      by_contra absent
      rw [lead_eq_none_iff.mpr absent] at led
      cases led
    obtain ⟨before, arguments, rfl, absent⟩ := List.eq_append_cons_of_mem member
    obtain rfl := Option.some.inj ((lead_append absent arguments).symm.trans led)
    exact ⟨absent, arguments, rfl⟩
  · rintro ⟨absent, arguments, rfl⟩
    exact lead_append absent arguments

theorem not_mem_of_named (read : Part.parameter.Reads ⟨0, true⟩ text) : '<' ∉ text := by
  induction text with
  | nil => exact List.not_mem_nil
  | cons c text ih =>
    obtain ⟨next, step, later⟩ := Part.reads_cons.mp read
    have stays : c ≠ '<' ∧ next = ⟨0, true⟩ := by
      unfold Part.step at step
      grind
    obtain ⟨other, rfl⟩ := stays
    exact fun member => (List.mem_cons.mp member).elim (fun same => other same.symm) (ih later)

theorem outer_step {c : Char} {next : Place} (other : c ≠ '<') (step : Part.parameter.step .start c = some next) :
    next = ⟨0, !isPath c⟩ := by
  unfold Part.step Place.start at step
  grind

theorem isPath_of_reads {arguments : Text} (absent : '<' ∉ front)
    (read : Part.parameter.Reads .start (front ++ '<' :: arguments)) : ∀ c ∈ front, isPath c = true := by
  induction front with
  | nil => exact nofun
  | cons c front ih =>
    obtain ⟨next, step, later⟩ := Part.reads_cons.mp read
    obtain rfl := outer_step (fun same => absent (same ▸ List.mem_cons_self)) step
    have stillPath : isPath c = true := by
      by_contra outside
      rw [Bool.eq_false_iff.mpr outside] at later
      exact not_mem_of_named later (List.mem_append_right front List.mem_cons_self)
    rw [stillPath] at later
    have path := ih (fun member => absent (List.mem_cons_of_mem c member)) later
    exact fun d member => (List.mem_cons.mp member).elim (fun same => same ▸ stillPath) (path d)

theorem reads_of_lead {arguments : Text} (path : ∀ c ∈ front, isPath c = true)
    (read : Part.parameter.Reads .start (front ++ '<' :: arguments)) : Part.parameter.Reads ⟨1, true⟩ arguments := by
  obtain ⟨next, step, later⟩ := Part.reads_cons.mp ((Part.reads_path path).mp read)
  obtain rfl := Option.some.inj ((show Part.parameter.step .start '<' = some ⟨1, true⟩ from rfl).symm.trans step)
  exact later

end Lead

def Quiet (rule : Rewriter Char) : Prop :=
  ∀ before text behind, rule.front before text = some behind → '<' ∉ text →
    '<' ∉ (rule.resume behind).1 ∧ '<' ∉ (rule.resume behind).2

section Quiet

variable {rule : Rewriter Char} {before : Option Char} {text : Text}

theorem Quiet.scan (quiet : Quiet rule) (absent : '<' ∉ text) : '<' ∉ rule.scan before text := by
  induction before, text using Rewriter.scan_induction rule with
  | nil before => exact absent
  | skip before c rest unmatched ih =>
    rw [Rewriter.scan_cons_none unmatched]
    intro member
    rcases List.mem_cons.mp member with rfl | later
    · exact absent List.mem_cons_self
    · exact ih (fun member => absent (List.mem_cons_of_mem c member)) later
  | hit before text behind matched ih =>
    obtain ⟨written, later⟩ := quiet before text behind matched absent
    rw [Rewriter.scan_of_some matched]
    exact fun member => (List.mem_append.mp member).elim written (ih later)

theorem quiet_rule {regex : Regex} {replacement : Text} (absent : '<' ∉ replacement) :
    Quiet (regex.rule replacement) := by
  intro before text behind matched outside
  obtain ⟨used, -, rfl⟩ := regex.exists_used before matched
  exact ⟨absent, fun member => outside (List.mem_append_right used member)⟩

theorem afterBracket_suffix (depth : Nat) (text : Text) : afterBracket depth text <:+ text := by
  induction text generalizing depth with
  | nil => cases depth <;> exact List.suffix_refl _
  | cons c rest ih =>
    cases depth with
    | zero => exact List.suffix_refl _
    | succ depth =>
      rw [afterBracket]
      split
      · exact (ih _).trans (List.suffix_cons c rest)
      · split <;> exact (ih _).trans (List.suffix_cons c rest)

theorem quiet_templateRule {regex : Regex} {replacement : Text} (absent : '<' ∉ replacement) :
    Quiet (regex.templateRule replacement) := by
  intro before text behind matched outside
  obtain ⟨used, -, rfl⟩ := regex.exists_used before matched
  refine ⟨absent, fun member => outside (List.mem_append_right used ?_)⟩
  exact (afterBracket_suffix 1 behind).subset member

theorem quiet_foldBrackets : Quiet foldBrackets := by
  intro before text behind matched outside
  obtain rfl : "> >".toList ++ behind = text := List.isPrefixOf?_eq_some_iff_append_eq.mp matched
  refine ⟨show '<' ∉ ['>'] by decide, fun member => outside (List.mem_append_right _ ?_)⟩
  exact (List.mem_cons.mp member).elim (fun same => absurd same (by decide)) id

end Quiet

/-- In front of the first bracket stands the name of `std` that a rule looks for. -/
def Opens (word text : Text) : Prop :=
  ∃ scope, IsScope scope ∧ lead text = some ("std::".toList ++ (scope ++ word))

section Opens

variable {regex : Regex} {rule : Rewriter Char} {name : OpenedName} {word text : Text}

theorem isSome_stdRe (bare : name.tail = []) : (stdRe name.text text).isSome ↔ Opens name.word text := by
  have whole (scope behind : Text) : "std::".toList ++ (scope ++ (name.text ++ behind)) =
      ("std::".toList ++ (scope ++ name.word)) ++ '<' :: behind := by
    rw [OpenedName.text, bare]
    simp only [List.append_assoc, List.cons_append, List.nil_append]
  simp only [Option.isSome_iff_exists, stdRe_eq_some_iff name.opened, Opens, lead_eq_some_iff, whole]
  constructor
  · rintro ⟨arguments, scope, isScope, rfl⟩
    exact ⟨scope, isScope, not_mem_std isScope name.isWord rfl, arguments, rfl⟩
  · rintro ⟨scope, isScope, -, arguments, rfl⟩
    exact ⟨arguments, scope, isScope, rfl⟩

theorem Copies.lead_scan (copies : Copies regex fun _ => True) (reads : rule.front = regex.front) (quiet : Quiet rule)
    (read : Part.parameter.Reads .start text) : lead (rule.scan none text) = lead text := by
  -- without a bracket there is none afterwards; with one, the name in front of it is copied
  cases led : lead text with
  | none => exact lead_eq_none_iff.mpr (quiet.scan (lead_eq_none_iff.mp led))
  | some front =>
    obtain ⟨absent, arguments, rfl⟩ := lead_eq_some_iff.mp led
    rw [copies.scan_name reads trivial (isPath_of_reads absent read)]
    exact lead_append absent _

/-- The rules for strings keep it as well, or replace all that a bracket closes. -/
theorem scan_std_cases {replacement front arguments : Text} (path : ∀ c ∈ name.tail, isPath c = true)
    (absent : '<' ∉ replacement) (before : Option Char) (path' : ∀ c ∈ front, isPath c = true)
    (read : Part.parameter.Reads ⟨1, true⟩ arguments) :
    (∃ later, (Regex.templateRule (.std name) replacement).scan before (front ++ '<' :: arguments) =
      front ++ '<' :: later) ∨
      '<' ∉ (Regex.templateRule (.std name) replacement).scan before (front ++ '<' :: arguments) ∧
        name.word <:+ front := by
  induction front generalizing before with
  | nil => exact .inl ⟨_, copies_std.scan_bracket rfl⟩
  | cons c front ih =>
    cases matched : (Regex.templateRule (.std name) replacement).front before (c :: (front ++ '<' :: arguments)) with
    | none =>
      have other : '<' ≠ c := (ne_of_isPath (path' c List.mem_cons_self) rfl).symm
      rw [List.cons_append, Rewriter.scan_cons_none matched]
      rcases ih (some c) fun d member => path' d (List.mem_cons_of_mem c member) with ⟨later, same⟩ | ⟨gone, isSuffix⟩
      · exact .inl ⟨later, congrArg (c :: ·) same⟩
      · exact .inr ⟨fun member => (List.mem_cons.mp member).elim other gone, isSuffix.trans (List.suffix_cons c front)⟩
    | some behind =>
      obtain ⟨_, ⟨scope, isScope, rfl⟩, whole⟩ := Regex.exists_used (.std name) before matched
      have whole' : (c :: front) ++ '<' :: arguments =
          ("std::".toList ++ (scope ++ name.word)) ++ '<' :: (name.tail ++ behind) := by
        rw [List.cons_append, whole, OpenedName.text]
        simp only [List.append_assoc, List.cons_append]
      have unopened : '<' ∉ c :: front := fun member => ne_of_isPath (path' _ member) rfl rfl
      obtain ⟨same, rfl⟩ := first_unique unopened (not_mem_std isScope name.isWord rfl) whole'
      -- the alias takes the place of all brackets of the parameter
      have opened : Part.parameter.Reads ⟨0 + 1, true⟩ behind := (Part.reads_path path).mp read
      have closed := (Part.reads_afterBracket opened).1
      rw [List.cons_append, Rewriter.scan_of_some matched, same]
      refine .inr ⟨fun member => ?_, (List.suffix_append scope name.word).trans (List.suffix_append _ _)⟩
      rcases List.mem_append.mp member with inReplacement | later
      · exact absent inReplacement
      · exact (quiet_templateRule absent).scan (not_mem_of_named closed) later

theorem opens_scan_std {replacement : Text} (path : ∀ c ∈ name.tail, isPath c = true) (absent : '<' ∉ replacement)
    (apart : ¬ name.word <:+ word) (apart' : ¬ word <:+ name.word) (read : Part.parameter.Reads .start text) :
    Opens word ((Regex.templateRule (.std name) replacement).scan none text) ↔ Opens word text := by
  cases led : lead text with
  | none =>
    have gone : '<' ∉ (Regex.templateRule (.std name) replacement).scan none text :=
      (quiet_templateRule absent).scan (lead_eq_none_iff.mp led)
    simp only [Opens, led, lead_eq_none_iff.mpr gone]
  | some front =>
    obtain ⟨unopened, arguments, rfl⟩ := lead_eq_some_iff.mp led
    have path' := isPath_of_reads unopened read
    rcases scan_std_cases path absent none path' (reads_of_lead path' read) with ⟨later, same⟩ | ⟨gone, isSuffix⟩
    · simp only [Opens, same, lead_append unopened]
    · simp only [Opens, lead_eq_none_iff.mpr gone, led]
      refine ⟨fun ⟨_, _, same⟩ => (nomatch same), ?_⟩
      rintro ⟨scope, -, same⟩
      obtain rfl := Option.some.inj same
      have ends : word <:+ "std::".toList ++ (scope ++ word) :=
          (List.suffix_append scope word).trans (List.suffix_append _ _)
      exact ((List.suffix_or_suffix_of_suffix isSuffix ends).elim apart apart').elim

end Opens

structure IsParameter (text : Text) : Prop where
  reads : Part.parameter.Reads .start text
  begins : ∃ c rest, text = c :: rest ∧ isPath c = true

/-- A parameter in front of the rule for `class` and `struct`. -/
structure IsNamed (text : Text) : Prop where
  reads : Part.parameter.Reads .start text
  begins : ∃ path, IsQualified path ∧ BeginsWith path text

structure IsSpaced (text : Text) : Prop extends IsNamed text where
  visible : EndsVisible text

theorem IsType.isSpaced {type : Text} (isType : IsType type) : IsSpaced type where
  reads := isType.reads
  begins := isType.begins
  visible c last := by
    obtain ⟨d, last', visible⟩ := isType.ends
    obtain rfl := Option.some.inj (last'.symm.trans last)
    exact visible

theorem IsNamed.first {text : Text} (named : IsNamed text) : ∃ c rest, text = c :: rest ∧ isPath c = true := by
  obtain ⟨path, qualified, rest, rfl, -⟩ := named.begins
  obtain ⟨c, path', rfl⟩ := List.exists_cons_of_ne_nil qualified.ne_nil
  exact ⟨c, path' ++ rest, rfl, qualified.chars c List.mem_cons_self⟩

def defaults : List OpenedName :=
  [allocator, defaultDelete]

theorem tail_of_default {name : OpenedName} (isDefault : name ∈ defaults) : name.tail = [] := by
  rcases List.mem_pair.mp isDefault with rfl | rfl <;> rfl

theorem bounded_default {name : OpenedName} (isDefault : name ∈ defaults) :
    Bounded (.argument name) (Regex.templateRule (.argument name) []) := by
  rcases List.mem_pair.mp isDefault with rfl | rfl
  · exact bounded_argument rfl (by decide) (by decide)
  · exact bounded_argument rfl (by decide) (by decide)

/-- A pass that rewrites the name and every parameter alone, and keeps which parameters
look like default arguments. -/
structure Passes (Before After : Text → Prop) (pass : Text → Text) : Prop where
  isName : ∀ {name}, IsName name → IsName (pass name)
  symbol : ∀ {name parameters}, IsName name → (∀ parameter ∈ parameters, Before parameter) →
    pass (symbolText name parameters) = symbolText (pass name) (parameters.map pass)
  keeps : ∀ {parameter}, Before parameter → After (pass parameter)
  opens : ∀ {parameter}, Before parameter → ∀ name ∈ defaults, Opens name.word (pass parameter) ↔
    Opens name.word parameter

section Passes

variable {regex : Regex} {rule : Rewriter Char} {Before Between After : Text → Prop} {first second : Text → Text}

theorem Passes.comp (passes : Passes Before Between first) (passes' : Passes Between After second) :
    Passes Before After (second ∘ first) where
  isName isName := passes'.isName (passes.isName isName)
  symbol isName fits := by
    rw [Function.comp_apply, passes.symbol isName fits, passes'.symbol (passes.isName isName), List.map_map]
    · rfl
    · intro parameter' member'
      obtain ⟨parameter, member, rfl⟩ := List.mem_map.mp member'
      exact passes.keeps (fits parameter member)
  keeps fits := passes'.keeps (passes.keeps fits)
  opens fits name isDefault :=
    (passes'.opens (passes.keeps fits) name isDefault).trans (passes.opens fits name isDefault)

theorem Bounded.passes (bounded : Bounded regex rule) (comma : Shuns regex ',')
    (blank : ∀ before used, ¬ regex.Uses before (' ' :: used))
    (reads : ∀ {text}, Before text → Part.parameter.Reads .start text)
    (keeps : ∀ {text}, Before text → After (rule.scan none text))
    (opens : ∀ {text}, Before text → ∀ name ∈ defaults, Opens name.word (rule.scan none text) ↔ Opens name.word text) :
    Passes Before After (rule.scan none) where
  isName isName := bounded.isName isName
  symbol isName fits := bounded.scan_symbol isName fun parameter later split => by
    subst split
    exact scan_list bounded comma blank (reads (fits parameter List.mem_cons_self))
      fun next member => reads (fits next (List.mem_cons_of_mem parameter member))
  keeps := keeps
  opens := opens

/-- The first character of a parameter is kept, or what replaces it begins with such a one. -/
theorem IsParameter.scan {text : Text} (isParameter : IsParameter text) (readsOn : ReadsOn .parameter rule)
    (emits : ∀ before c rest behind, isPath c = true → rule.front before (c :: rest) = some behind →
      ∃ d more, (rule.resume behind).1 = d :: more ∧ isPath d = true) : IsParameter (rule.scan none text) where
  reads := readsOn.scan isParameter.reads
  begins := by
    obtain ⟨c, rest, rfl, path⟩ := isParameter.begins
    cases matched : rule.front none (c :: rest) with
    | none => exact ⟨c, _, Rewriter.scan_cons_none matched, path⟩
    | some behind =>
      obtain ⟨d, more, emitted, path'⟩ := emits none c rest behind path matched
      rw [Rewriter.scan_of_some matched, emitted]
      exact ⟨d, _, rfl, path'⟩

theorem IsParameter.scan_of_outside {text : Text} (isParameter : IsParameter text) (readsOn : ReadsOn .parameter rule)
    (reads : rule.front = regex.front) (outside : Outside regex) : IsParameter (rule.scan none text) := by
  refine isParameter.scan readsOn fun before c rest behind path matched => ?_
  rw [reads, regex.front_cons_eq_none (fun used => outside before c used path) rest] at matched
  cases matched

theorem getLast?_foldBrackets (before : Option Char) (text : Text) :
    (foldBrackets.scan before text).getLast? = text.getLast? := by
  induction before, text using Rewriter.scan_induction foldBrackets with
  | nil before => rfl
  | skip before c rest unmatched ih =>
    rw [Rewriter.scan_cons_none unmatched, List.getLast?_cons, List.getLast?_cons, ih]
  | hit before text behind matched ih =>
    obtain rfl : '>' :: ' ' :: '>' :: behind = text := List.isPrefixOf?_eq_some_iff_append_eq.mp matched
    have ih : (foldBrackets.scan none ('>' :: behind)).getLast? = ('>' :: behind).getLast? := ih
    rw [Rewriter.scan_of_some matched]
    show ('>' :: foldBrackets.scan none ('>' :: behind)).getLast? = _
    rw [List.getLast?_cons, ih, List.getLast?_cons_cons, List.getLast?_cons_cons, List.getLast?_cons]
    rfl

theorem passes_foldBrackets : Passes IsSpaced IsSpaced (foldBrackets.scan none) := by
  refine bounded_foldBrackets.passes (shuns_literal (by decide))
    (fun _ _ same => absurd (List.cons.inj same).1 (by decide))
    (fun spaced => spaced.reads) (fun {text} spaced => ?_) fun {text} spaced name _ => ?_
  · obtain ⟨path, qualified, begins⟩ := spaced.begins
    have begins' : BeginsWith path (foldBrackets.scan none text) :=
      begins.scan_of_outside (.literal "> >".toList (by decide)) qualified.chars rfl (fun _ => rfl)
        (outside_literal rfl)
        fun behind => ⟨'>', [], rfl, rfl⟩
    refine ⟨⟨readsOn_foldBrackets.scan spaced.reads, path, qualified, begins'⟩, fun c last => spaced.visible c ?_⟩
    rwa [getLast?_foldBrackets] at last
  · have copies : Copies (.literal "> >".toList (by decide)) fun _ => True := copies_literal rfl (by decide)
    have kept : lead (foldBrackets.scan none text) = lead text := copies.lead_scan rfl quiet_foldBrackets spaced.reads
    simp only [Opens, kept]

theorem passes_comma : Passes IsSpaced IsNamed (replaceAll .comma ", ".toList) where
  isName isName := bounded_comma.isName isName
  symbol isName fits := bounded_comma.scan_symbol isName fun parameter later split => by
    subst split
    refine scan_list_comma (fits parameter List.mem_cons_self).visible fun next member => ?_
    have fits' := fits next (List.mem_cons_of_mem parameter member)
    obtain ⟨c, rest, rfl, path⟩ := fits'.first
    refine ⟨fits'.visible, List.cons_ne_nil c rest, fun d head => Bool.eq_false_iff.mpr fun space => ?_⟩
    obtain rfl := Option.some.inj head
    rw [isPath_of_isSpace space] at path
    cases path
  keeps spaced := by
    obtain ⟨path, qualified, begins⟩ := spaced.begins
    refine ⟨readsOn_comma.scan spaced.reads, path, qualified, ?_⟩
    exact begins.scan_of_outside .comma qualified.chars rfl (fun _ => rfl) outside_comma
      fun behind => ⟨',', [' '], rfl, rfl⟩
  opens {text} spaced name _ := by
    have copies : Copies .comma fun _ => True := copies_comma
    have kept : lead (replaceAll .comma ", ".toList text) = lead text :=
      copies.lead_scan rfl (quiet_rule (by decide)) spaced.reads
    simp only [Opens, kept]

theorem IsNamed.unmatched {text : Text} (named : IsNamed text) : Regex.classKeyword.front none text = none := by
  obtain ⟨path, qualified, rest, rfl, ends⟩ := named.begins
  obtain ⟨identifier, tail, rfl, colons⟩ := qualified.begins
  have ends' : ∀ c ∈ (tail ++ rest).head?, isWord c = false := by
    intro c head
    cases tail with
    | nil => exact isWord_of_isPath (ends c head)
    | cons d tail =>
      obtain rfl := Option.some.inj head
      exact colons d rfl ▸ rfl
  rw [List.append_assoc]
  exact front_classKeyword identifier ends'

theorem passes_classKeyword : Passes IsNamed IsParameter (replaceAll .classKeyword []) := by
  refine bounded_classKeyword.passes (shuns_classKeyword rfl (by decide)) ?_ (fun named => named.reads)
    (fun named => ?_) fun {text} named name _ => ?_
  · rintro before used ⟨-, word, isKeyword, blank, -, -, whole⟩
    rcases List.mem_pair.mp isKeyword with rfl | rfl
    · exact absurd (List.cons.inj whole).1 (by decide)
    · exact absurd (List.cons.inj whole).1 (by decide)
  · obtain ⟨c, rest, rfl, path⟩ := named.first
    exact ⟨readsOn_classKeyword.scan named.reads, c, _, Rewriter.scan_cons_none named.unmatched, path⟩
  · have copies : Copies .classKeyword fun _ => True := copies_classKeyword
    have kept : lead ((Regex.rule .classKeyword []).scan none text) = lead text :=
      copies.lead_scan rfl (quiet_rule (by decide)) named.reads
    simp only [Opens, kept]

theorem passes_msvcAnonymousNamespace :
    Passes IsParameter IsParameter (replaceAll .msvcAnonymousNamespace "(anonymous namespace)".toList) := by
  refine bounded_msvcAnonymousNamespace.passes (shuns_literal (by decide))
    (fun _ _ same => absurd (List.cons.inj same).1 (by decide))
    (fun isParameter => isParameter.reads) (fun isParameter => ?_) fun {text} isParameter name _ => ?_
  · exact isParameter.scan_of_outside readsOn_msvcAnonymousNamespace rfl (outside_literal rfl)
  · have copies : Copies .msvcAnonymousNamespace fun _ => True := copies_literal rfl (by decide)
    have kept : lead ((Regex.rule .msvcAnonymousNamespace "(anonymous namespace)".toList).scan none text) = lead text :=
      copies.lead_scan rfl (quiet_rule (by decide)) isParameter.reads
    simp only [Opens, kept]

theorem Bounded.passes_std {name : OpenedName} {c : Char} {replacement : Text}
    (bounded : Bounded (.std name) (Regex.templateRule (.std name) (c :: replacement)))
    (path : ∀ c ∈ name.tail, isPath c = true)
    (path' : ∀ d ∈ c :: replacement, isPath d = true)
    (apart : ∀ other ∈ defaults, ¬ name.word <:+ other.word ∧ ¬ other.word <:+ name.word) :
    Passes IsParameter IsParameter (replaceAllTemplate (.std name) (c :: replacement)) := by
  refine bounded.passes (shuns_std path rfl (by decide)) ?_ (fun isParameter => isParameter.reads)
    (fun isParameter => ?_) fun isParameter other isDefault => ?_
  · rintro before used ⟨scope, -, whole⟩
    exact absurd (List.cons.inj whole).1 (by decide)
  · exact isParameter.scan (bounded.readsOn _) fun _ _ _ _ _ _ => ⟨c, replacement, rfl, path' c List.mem_cons_self⟩
  · have absent : '<' ∉ c :: replacement := fun member => ne_of_isPath (path' _ member) rfl rfl
    exact opens_scan_std path absent (apart other isDefault).1 (apart other isDefault).2 isParameter.reads

end Passes

section Arguments

variable {name : OpenedName} {parameter : Text} {parameters : List Text}

/-- A match at the comma in front of a parameter does not lead out of it. -/
theorem front_separated (path : ∀ c ∈ name.tail, isPath c = true) (before : Option Char) (parameter : Text)
    (parameters : List Text) :
    (Regex.argument name).front before (',' :: ' ' :: (parameter ++ ending parameters)) =
      ((Regex.argument name).front before (',' :: ' ' :: parameter)).map (· ++ ending parameters) := by
  show (Regex.argument name).front before ((',' :: ' ' :: parameter) ++ ending parameters) = _
  refine Regex.front_append _ (fun greedy => Bool.noConfusion greedy) fun piece rest nonempty split uses => ?_
  obtain ⟨c, piece, rfl⟩ := List.exists_cons_of_ne_nil nonempty
  have isEnd : c = ',' ∨ c = ')' := by
    cases parameters with
    | nil => exact .inr (List.cons.inj split).1.symm
    | cons next parameters => exact .inl (List.cons.inj split).1.symm
  have member : c ∈ ' ' :: parameter ++ c :: piece := List.mem_append_right _ List.mem_cons_self
  rcases isEnd with rfl | rfl
  · exact (argument_inner path rfl (by decide) rfl before ',' _ uses).2 member
  · exact (argument_inner path rfl (by decide) rfl before ',' _ uses).2 member

theorem scan_separated (path : ∀ c ∈ name.tail, isPath c = true) {named : Bool}
    (read : Part.parameter.Reads ⟨0, named⟩ parameter)
    (rest : Text) :
    replaceAllTemplate (.argument name) [] (parameter ++ ',' :: rest) =
      replaceAllTemplate (.argument name) [] parameter ++ replaceAllTemplate (.argument name) [] (',' :: rest) := by
  refine scan_append_text rfl (readsOn_argument path) rfl (fun _ => rfl) (fun before d used uses => ?_) read
  exact (argument_inner path rfl (by decide) rfl before d used uses).2

theorem scan_unmatched (path : ∀ c ∈ name.tail, isPath c = true)
    (unmatched : (Regex.argument name).front none (',' :: ' ' :: parameter) = none) (parameters : List Text) :
    replaceAllTemplate (.argument name) [] (',' :: ' ' :: (parameter ++ ending parameters)) =
      ',' :: ' ' :: replaceAllTemplate (.argument name) [] (parameter ++ ending parameters) := by
  have spaced (rest : Text) : (Regex.templateRule (.argument name) []).scan (some ',') (' ' :: rest) =
      ' ' :: (Regex.templateRule (.argument name) []).scan none rest := by
    refine Regex.scan_separator (.argument name) rfl rfl (fun before => Regex.front_cons_eq_none _ ?_ rest) _
    rintro used ⟨blank, scope, -, -, whole⟩
    exact absurd (List.cons.inj whole).1 (by decide)
  have unmatched' : (Regex.argument name).front none (',' :: ' ' :: (parameter ++ ending parameters)) = none := by
    rw [front_separated path, unmatched]
    rfl
  exact (Rewriter.scan_cons_none unmatched').trans (congrArg (',' :: ·) (spaced _))

theorem isSome_front (isDefault : name ∈ defaults) (opens : Opens name.word parameter) :
    ((Regex.argument name).front none (',' :: ' ' :: parameter)).isSome := by
  obtain ⟨arguments, found⟩ := Option.isSome_iff_exists.mp ((isSome_stdRe (tail_of_default isDefault)).mpr opens)
  obtain ⟨scope, isScope, rfl⟩ := (stdRe_eq_some_iff name.opened).mp found
  refine Option.isSome_iff_exists.mpr
    ⟨arguments, (argumentRe_eq_some_iff name.opened).mpr ⟨[' '], scope, ?_, isScope, rfl⟩⟩
  exact fun c member => List.mem_singleton.mp member ▸ rfl

theorem IsParameter.front_eq_none (isParameter : IsParameter parameter) (isDefault : name ∈ defaults)
    (other : ¬ Opens name.word parameter) :
    (Regex.argument name).front none (',' :: ' ' :: parameter) = none := by
  obtain ⟨c, rest, rfl, path⟩ := isParameter.begins
  have visible : ¬ isSpace c = true := fun space => by
    rw [isPath_of_isSpace space] at path
    cases path
  have same : (Regex.argument name).front none (',' :: ' ' :: c :: rest) = stdRe name.text (c :: rest) := by
    show stdRe name.text ((' ' :: c :: rest).dropWhile isSpace) = _
    rw [List.dropWhile_cons_of_pos rfl, List.dropWhile_cons_of_neg visible]
  rw [same]
  exact Option.not_isSome_iff_eq_none.mp (mt (isSome_stdRe (tail_of_default isDefault)).mp other)

theorem scan_list_argument (isDefault : name ∈ defaults) {named : Bool}
    (read : Part.parameter.Reads ⟨0, named⟩ parameter)
    (later : ∀ next ∈ parameters, IsParameter next ∧ ¬ Opens name.word next) :
    replaceAllTemplate (.argument name) [] (parameter ++ ending parameters) =
      replaceAllTemplate (.argument name) [] parameter ++ ending
        (parameters.map (replaceAllTemplate (.argument name) [])) := by
  have path : ∀ c ∈ name.tail, isPath c = true := tail_of_default isDefault ▸ nofun
  induction parameters generalizing parameter named with
  | nil =>
    exact scan_append_separator rfl (readsOn_argument path) rfl rfl (bounded_default isDefault).closing read
  | cons next parameters ih =>
    obtain ⟨isParameter, other⟩ := later next List.mem_cons_self
    rw [ending_cons, scan_separated path read, scan_unmatched path (isParameter.front_eq_none isDefault other),
      List.map_cons, ending_cons,
      ih isParameter.reads fun after member => later after (List.mem_cons_of_mem next member)]

/-- A match in front of a parameter ends in it, and what its bracket closes as well. -/
theorem resume_separated (isDefault : name ∈ defaults) {behind : Text} (read : Part.parameter.Reads .start parameter)
    (matched : (Regex.argument name).front none (',' :: ' ' :: parameter) = some behind) :
    Part.parameter.Reads ⟨0, true⟩ (afterBracket 1 behind) ∧
      ∀ after, afterBracket 1 (behind ++ after) = afterBracket 1 behind ++ after := by
  have found : argumentRe name.text (',' :: ' ' :: parameter) = some behind := matched
  obtain ⟨blank, scope, isBlank, isScope, whole⟩ := (argumentRe_eq_some_iff name.opened).mp found
  have spaced := (List.cons.inj whole).2
  cases blank with
  | nil => exact absurd (List.cons.inj spaced).1 (by decide)
  | cons c blank =>
    obtain ⟨-, rfl⟩ := List.cons.inj spaced
    have opened := Part.reads_blank (fun d member => isBlank d (List.mem_cons_of_mem c member)) read
    exact Part.closes_opened isScope (tail_of_default isDefault ▸ nofun) opened

/-- With a match the scan goes on in the parameter, and what is left of it has no separator in front. -/
theorem scan_matched (isDefault : name ∈ defaults) {behind : Text} (read : Part.parameter.Reads .start parameter)
    (matched : (Regex.argument name).front none (',' :: ' ' :: parameter) = some behind) (parameters : List Text) :
    replaceAllTemplate (.argument name) [] (',' :: ' ' :: (parameter ++ ending parameters)) =
      replaceAllTemplate (.argument name) [] (afterBracket 1 behind ++ ending parameters) := by
  have path : ∀ c ∈ name.tail, isPath c = true := tail_of_default isDefault ▸ nofun
  have matched' : (Regex.argument name).front none (',' :: ' ' :: (parameter ++ ending parameters)) =
      some (behind ++ ending parameters) := by
    rw [front_separated path, matched]
    rfl
  rw [← (resume_separated isDefault read matched).2]
  exact Rewriter.scan_of_some matched'

/-- Every parameter behind the first is kept, or goes into the one in front of it. -/
theorem scan_arguments (isDefault : name ∈ defaults) {named : Bool} (read : Part.parameter.Reads ⟨0, named⟩ parameter)
    (later : ∀ next ∈ parameters, Part.parameter.Reads .start next) :
    ∃ kept keptLater, replaceAllTemplate (.argument name) [] (parameter ++ ending parameters) =
      kept ++ ending keptLater ∧
      Part.parameter.Reads ⟨0, named⟩ kept ∧ (∀ next ∈ keptLater, Part.parameter.Reads .start next) ∧
      keptLater.length ≤ parameters.length ∧
      ((∃ next ∈ parameters, Opens name.word next) → keptLater.length < parameters.length) := by
  have path : ∀ c ∈ name.tail, isPath c = true := tail_of_default isDefault ▸ nofun
  have read' : Part.parameter.Reads ⟨0, named⟩ (replaceAllTemplate (.argument name) [] parameter) :=
      (readsOn_argument path).scan read
  induction parameters generalizing parameter named with
  | nil =>
    refine ⟨_, [], scan_append_separator rfl (readsOn_argument path) rfl rfl (bounded_default isDefault).closing read,
      read', nofun, Nat.le_refl 0, ?_⟩
    rintro ⟨next, member, -⟩
    cases member
  | cons next parameters ih =>
    have isNext := later next List.mem_cons_self
    have isLater := fun after member => later after (List.mem_cons_of_mem next member)
    rw [ending_cons, scan_separated path read]
    cases matched : (Regex.argument name).front none (',' :: ' ' :: next) with
    | none =>
      obtain ⟨kept, keptLater, same, isKept, isKeptLater, atMost, fewer⟩ :=
          ih isNext isLater ((readsOn_argument path).scan isNext)
      refine ⟨_, kept :: keptLater, ?_, read', ?_, Nat.succ_le_succ atMost, ?_⟩
      · rw [scan_unmatched path matched, same, ending_cons]
      · intro after member
        rcases List.mem_cons.mp member with rfl | inLater
        · exact isKept
        · exact isKeptLater after inLater
      · rintro ⟨after, member, opens⟩
        rcases List.mem_cons.mp member with rfl | inLater
        · have found := isSome_front isDefault opens
          rw [matched] at found
          cases found
        · exact Nat.succ_lt_succ (fewer ⟨after, inLater, opens⟩)
    | some behind =>
      -- what the bracket leaves of the parameter is the front of the next step
      have closed := (resume_separated isDefault isNext matched).1
      obtain ⟨kept, keptLater, same, isKept, isKeptLater, atMost, -⟩ :=
          ih closed isLater ((readsOn_argument path).scan closed)
      obtain ⟨⟨depth, named'⟩, ran, rfl⟩ := read'
      refine ⟨replaceAllTemplate (.argument name) [] parameter ++ kept, keptLater, ?_, ?_, isKeptLater, ?_, fun _ => ?_⟩
      · rw [scan_matched isDefault isNext matched, same, List.append_assoc]
      · exact Part.reads_append.mpr ⟨_, ran, Part.reads_of_named isKept⟩
      · exact Nat.le_succ_of_le atMost
      · exact Nat.lt_succ_of_le atMost

end Arguments

section Symbols

variable (name : OpenedName) {function : Text} {parameters : List Text}

theorem symbol_argument (isDefault : name ∈ defaults) (isName : IsName function)
    (fits : ∀ parameter ∈ parameters, IsParameter parameter)
    (others : ∀ parameter ∈ parameters.tail, ¬ Opens name.word parameter) :
    replaceAllTemplate (.argument name) [] (symbolText function parameters) =
      symbolText (replaceAllTemplate (.argument name) [] function)
        (parameters.map (replaceAllTemplate (.argument name) [])) := by
  refine (bounded_default isDefault).scan_symbol isName fun parameter later split => ?_
  subst split
  refine scan_list_argument isDefault (fits parameter List.mem_cons_self).reads fun next member => ?_
  exact ⟨fits next (List.mem_cons_of_mem parameter member), others next member⟩

theorem symbol_argument_dropped (isDefault : name ∈ defaults) (isName : IsName function)
    (read : ∀ parameter ∈ parameters, Part.parameter.Reads .start parameter) :
    ∃ kept, replaceAllTemplate (.argument name) [] (symbolText function parameters) =
        symbolText (replaceAllTemplate (.argument name) [] function) kept ∧
      (∀ parameter ∈ kept, Part.parameter.Reads .start parameter) ∧ kept.length ≤ parameters.length ∧
      ((∃ parameter ∈ parameters.tail, Opens name.word parameter) → kept.length < parameters.length) := by
  have bounded := bounded_default isDefault
  cases parameters with
  | nil => exact ⟨[], bounded.scan_symbol isName nofun, nofun, Nat.le_refl 0, fun ⟨_, member, _⟩ => nomatch member⟩
  | cons parameter later =>
    obtain ⟨kept, keptLater, same, isKept, isKeptLater, atMost, fewer⟩ :=
      scan_arguments isDefault (read parameter List.mem_cons_self) fun next member =>
        read next (List.mem_cons_of_mem parameter member)
    refine ⟨kept :: keptLater, ?_, ?_, Nat.succ_le_succ atMost, fun opens => Nat.succ_lt_succ (fewer opens)⟩
    · rw [symbolText_cons, symbolText_cons, ← same]
      exact bounded.scan_name isName _
    · intro next member
      rcases List.mem_cons.mp member with rfl | inLater
      · exact isKept
      · exact isKeptLater next inLater

end Symbols

def plainPasses : Text → Text :=
  replaceAllTemplate (.std basicStringView) "std::string_view".toList ∘ replaceAllTemplate (.std basicString)
    "std::string".toList ∘
    replaceAll .msvcAnonymousNamespace "(anonymous namespace)".toList ∘ replaceAll .classKeyword [] ∘
    replaceAll .comma ", ".toList ∘ foldBrackets.scan none

def dropDefaults : Text → Text :=
  replaceAllTemplate (.argument defaultDelete) [] ∘ replaceAllTemplate (.argument allocator) []

theorem prettifySymbol_eq (symbol : Text) :
    prettifySymbol symbol = dropAbiNamespace.scan none (dropDefaults (plainPasses symbol)) := by
  simp only [prettifySymbol, dropDefaults, plainPasses, Function.comp_apply]

theorem passes_plainPasses : Passes IsSpaced IsParameter plainPasses := by
  have named := (passes_foldBrackets.comp passes_comma).comp passes_classKeyword
  have string : Passes IsParameter IsParameter (replaceAllTemplate (.std basicString) "std::string".toList) :=
    bounded_basicString.passes_std (by decide) (by decide) (by decide)
  have view : Passes IsParameter IsParameter (replaceAllTemplate (.std basicStringView) "std::string_view".toList) :=
    bounded_basicStringView.passes_std (by decide) (by decide) (by decide)
  exact ((named.comp passes_msvcAnonymousNamespace).comp string).comp view

section Drops

variable (name : OpenedName) {function parameter : Text} {parameters : List Text}

theorem IsParameter.drop (isParameter : IsParameter parameter) (isDefault : name ∈ defaults) :
    IsParameter (replaceAllTemplate (.argument name) [] parameter) :=
  isParameter.scan_of_outside ((bounded_default isDefault).readsOn _) rfl outside_argument

theorem IsParameter.opens_drop (isParameter : IsParameter parameter) (word : Text) :
    Opens word (replaceAllTemplate (.argument name) [] parameter) ↔ Opens word parameter := by
  have copies : Copies (.argument name) fun _ => True := copies_argument
  have kept : lead (replaceAllTemplate (.argument name) [] parameter) = lead parameter :=
    copies.lead_scan rfl (quiet_templateRule List.not_mem_nil) isParameter.reads
  simp only [Opens, kept]

theorem forall_drop (isDefault : name ∈ defaults) (fits : ∀ parameter ∈ parameters, IsParameter parameter) :
    ∀ parameter ∈ parameters.map (replaceAllTemplate (.argument name) []), IsParameter parameter := by
  intro dropped member'
  obtain ⟨parameter, member, rfl⟩ := List.mem_map.mp member'
  exact (fits parameter member).drop name isDefault

theorem exists_opens_drop (word : Text) (fits : ∀ parameter ∈ parameters, IsParameter parameter) :
    (∃ parameter ∈ (parameters.map (replaceAllTemplate (.argument name) [])).tail, Opens word parameter) ↔
      ∃ parameter ∈ parameters.tail, Opens word parameter := by
  rw [← List.map_tail]
  constructor
  · rintro ⟨dropped, member', opens⟩
    obtain ⟨parameter, member, rfl⟩ := List.mem_map.mp member'
    exact ⟨parameter, member, ((fits parameter (List.mem_of_mem_tail member)).opens_drop name word).mp opens⟩
  · rintro ⟨parameter, member, opens⟩
    refine ⟨_, List.mem_map_of_mem member, ?_⟩
    exact ((fits parameter (List.mem_of_mem_tail member)).opens_drop name word).mpr opens

theorem isAllocator : allocator ∈ defaults :=
  List.mem_cons_self

theorem isDefaultDelete : defaultDelete ∈ defaults :=
  List.mem_cons_of_mem _ List.mem_cons_self

theorem IsName.drop (isName : IsName function) (isDefault : name ∈ defaults) :
    IsName (replaceAllTemplate (.argument name) [] function) :=
  (bounded_default isDefault).isName isName

theorem IsName.dropDefaults (isName : IsName function) : IsName (dropDefaults function) :=
  (isName.drop allocator isAllocator).drop defaultDelete isDefaultDelete

/-- No parameter behind the first looks like a default argument, and all are kept. -/
theorem dropDefaults_kept (isName : IsName function) (fits : ∀ parameter ∈ parameters, IsParameter parameter)
    (others : ∀ name ∈ defaults, ¬ ∃ parameter ∈ parameters.tail, Opens name.word parameter) :
    dropDefaults (symbolText function parameters) = symbolText (dropDefaults function) (parameters.map dropDefaults) ∧
      ∀ parameter ∈ parameters.map dropDefaults, IsParameter parameter := by
  have noAllocator := others allocator isAllocator
  have noDelete := mt (exists_opens_drop allocator _ fits).mp (others defaultDelete isDefaultDelete)
  have first := symbol_argument allocator isAllocator isName fits fun parameter member opens =>
      noAllocator ⟨parameter, member, opens⟩
  have fits' := forall_drop allocator isAllocator fits
  have second := symbol_argument defaultDelete isDefaultDelete (isName.drop allocator isAllocator) fits'
    fun parameter member opens => noDelete ⟨parameter, member, opens⟩
  have whole : parameters.map dropDefaults = (parameters.map (replaceAllTemplate (.argument allocator) [])).map
      (replaceAllTemplate (.argument defaultDelete) []) := (List.map_map ..).symm
  rw [whole]
  exact ⟨(congrArg _ first).trans second, forall_drop defaultDelete isDefaultDelete fits'⟩

/-- A parameter behind the first looks like a default argument, and one is lost. -/
theorem dropDefaults_dropped (isName : IsName function) (fits : ∀ parameter ∈ parameters, IsParameter parameter)
    (opened : ∃ name ∈ defaults, ∃ parameter ∈ parameters.tail, Opens name.word parameter) :
    ∃ kept, dropDefaults (symbolText function parameters) = symbolText (dropDefaults function) kept ∧
      (∀ parameter ∈ kept, Part.parameter.Reads .start parameter) ∧ kept.length < parameters.length := by
  have isName' := isName.drop allocator isAllocator
  -- the rule for allocators loses one, or it keeps all and the other rule loses one
  by_cases opens : ∃ parameter ∈ parameters.tail, Opens allocator.word parameter
  · obtain ⟨kept, same, isKept, -, fewer⟩ :=
      symbol_argument_dropped allocator isAllocator isName fun parameter member => (fits parameter member).reads
    obtain ⟨kept', same', isKept', atMost, -⟩ := symbol_argument_dropped defaultDelete isDefaultDelete isName' isKept
    exact ⟨kept', (congrArg _ same).trans same', isKept', Nat.lt_of_le_of_lt atMost (fewer opens)⟩
  · have same := symbol_argument allocator isAllocator isName fits fun parameter member opens' =>
        opens ⟨parameter, member, opens'⟩
    have fits' := forall_drop allocator isAllocator fits
    obtain ⟨kept, same', isKept, -, fewer⟩ :=
      symbol_argument_dropped defaultDelete isDefaultDelete isName' fun parameter member =>
        (fits' parameter member).reads
    have opened' : ∃ parameter ∈ parameters.tail, Opens defaultDelete.word parameter := by
      obtain ⟨name, isDefault, opened⟩ := opened
      rcases List.mem_pair.mp isDefault with rfl | rfl
      · exact absurd opened opens
      · exact opened
    have fewer := fewer ((exists_opens_drop allocator _ fits).mpr opened')
    rw [List.length_map] at fewer
    exact ⟨kept, (congrArg _ same).trans same', isKept, fewer⟩

end Drops

theorem symbol_dropAbiNamespace {function : Text} {parameters : List Text} (isName : IsName function)
    (read : ∀ parameter ∈ parameters, Part.parameter.Reads .start parameter) :
    dropAbiNamespace.scan none (symbolText function parameters) =
      symbolText (dropAbiNamespace.scan none function) (parameters.map (dropAbiNamespace.scan none)) := by
  refine bounded_dropAbiNamespace.scan_symbol isName fun parameter later split => ?_
  subst split
  exact scan_list bounded_dropAbiNamespace (shuns_literal (by decide))
    (fun _ _ same => absurd (List.cons.inj same).1 (by decide))
    (read parameter List.mem_cons_self) fun next member => read next (List.mem_cons_of_mem parameter member)

theorem IsParameter.scan_dropAbiNamespace {parameter : Text} (isParameter : IsParameter parameter) :
    IsParameter (dropAbiNamespace.scan none parameter) :=
  isParameter.scan readsOn_dropAbiNamespace fun _ _ _ _ _ _ => ⟨'s', [], rfl, rfl⟩

theorem looksDefaulted_iff {type : Text} (spaced : IsSpaced type) :
    LooksDefaulted type ↔ ∃ name ∈ defaults, Opens name.word (plainPasses type) := by
  have looks : LooksDefaulted type ↔ ∃ name ∈ defaults, Opens name.word type := by
    rw [LooksDefaulted, isSome_stdRe rfl, isSome_stdRe rfl]
    simp [defaults]
  rw [looks]
  exact exists_congr fun name => and_congr_right fun isDefault => (passes_plainPasses.opens spaced name isDefault).symm

theorem joined_ne_nil {parameter : Text} {parameters : List Text} (isParameter : IsParameter parameter) :
    joined (parameter :: parameters) ≠ [] := by
  obtain ⟨c, rest, rfl, -⟩ := isParameter.begins
  rw [joined_cons]
  exact List.cons_ne_nil c _

namespace Signature

variable (signature : Signature)

theorem spaced : ∀ parameter ∈ signature.parameters, IsSpaced parameter :=
  fun parameter member => (signature.types parameter member).isSpaced

theorem fits_plainPasses : ∀ parameter ∈ signature.parameters.map plainPasses, IsParameter parameter := by
  intro passed member'
  obtain ⟨parameter, member, rfl⟩ := List.mem_map.mp member'
  exact passes_plainPasses.keeps (signature.spaced parameter member)

theorem isName_dropDefaults : IsName (dropDefaults (plainPasses signature.name)) :=
  (passes_plainPasses.isName signature.isName).dropDefaults

theorem prettifySymbol_symbolText : prettifySymbol (symbolText signature.name signature.parameters) =
    dropAbiNamespace.scan none
      (dropDefaults (symbolText (plainPasses signature.name) (signature.parameters.map plainPasses))) := by
  rw [prettifySymbol_eq, passes_plainPasses.symbol signature.isName signature.spaced]

theorem opens_iff :
    (∃ name ∈ defaults, ∃ parameter ∈ (signature.parameters.map plainPasses).tail, Opens name.word parameter) ↔
    ∃ parameter ∈ signature.parameters.tail, LooksDefaulted parameter := by
  have spaced {parameter : Text} (member : parameter ∈ signature.parameters.tail) : IsSpaced parameter :=
    signature.spaced parameter (List.mem_of_mem_tail member)
  rw [← List.map_tail]
  constructor
  · rintro ⟨name, isDefault, passed, member', opens⟩
    obtain ⟨parameter, member, rfl⟩ := List.mem_map.mp member'
    exact ⟨parameter, member, (looksDefaulted_iff (spaced member)).mpr ⟨name, isDefault, opens⟩⟩
  · rintro ⟨parameter, member, looks⟩
    obtain ⟨name, isDefault, opens⟩ := (looksDefaulted_iff (spaced member)).mp looks
    exact ⟨name, isDefault, _, List.mem_map_of_mem member, opens⟩

theorem prettifySymbol_kept (others : ∀ parameter ∈ signature.parameters.tail, ¬ LooksDefaulted parameter) :
    prettifySymbol (symbolText signature.name signature.parameters) =
        symbolText (prettifySymbol signature.name) (signature.parameters.map prettifySymbol) ∧
      ∀ parameter ∈ signature.parameters.map prettifySymbol, IsParameter parameter := by
  have others' : ∀ name ∈ defaults, ¬ ∃ parameter ∈ (signature.parameters.map plainPasses).tail,
      Opens name.word parameter := by
    intro name isDefault opened
    obtain ⟨parameter, member, looks⟩ := signature.opens_iff.mp ⟨name, isDefault, opened⟩
    exact others parameter member looks
  obtain ⟨kept, isKept⟩ :=
      dropDefaults_kept (passes_plainPasses.isName signature.isName) signature.fits_plainPasses others'
  have scanned := symbol_dropAbiNamespace signature.isName_dropDefaults fun parameter member =>
      (isKept parameter member).reads
  have whole : signature.parameters.map prettifySymbol =
      ((signature.parameters.map plainPasses).map dropDefaults).map (dropAbiNamespace.scan none) := by
    have same : prettifySymbol = (dropAbiNamespace.scan none ∘ dropDefaults) ∘ plainPasses := by
      funext symbol
      rw [prettifySymbol_eq, Function.comp_apply, Function.comp_apply]
    rw [same, List.map_map, List.map_map]
  rw [prettifySymbol_symbolText, kept, scanned, whole, prettifySymbol_eq]
  refine ⟨rfl, fun last member' => ?_⟩
  obtain ⟨parameter, member, rfl⟩ := List.mem_map.mp member'
  exact (isKept parameter member).scan_dropAbiNamespace

theorem prettifySymbol_dropped (opened : ∃ parameter ∈ signature.parameters.tail, LooksDefaulted parameter) :
    ∃ kept, prettifySymbol (symbolText signature.name signature.parameters) =
      symbolText (prettifySymbol signature.name) kept ∧
      (∀ parameter ∈ kept, Part.parameter.Reads .start parameter) ∧ kept.length < signature.parameters.length := by
  obtain ⟨kept, dropped, isKept, fewer⟩ :=
    dropDefaults_dropped (passes_plainPasses.isName signature.isName) signature.fits_plainPasses
      (signature.opens_iff.mpr opened)
  have scanned := symbol_dropAbiNamespace signature.isName_dropDefaults isKept
  refine ⟨kept.map (dropAbiNamespace.scan none), ?_, fun last member' => ?_, ?_⟩
  · rw [prettifySymbol_symbolText, dropped, scanned, prettifySymbol_eq]
  · obtain ⟨parameter, member, rfl⟩ := List.mem_map.mp member'
    exact readsOn_dropAbiNamespace.scan (isKept parameter member)
  · rwa [List.length_map] at fewer ⊢

end Signature

/-- The parameters of a function are kept, each in its own form, if and only if none
behind the first looks like a default argument. -/
theorem parametersOf_prettifySymbol_iff (signature : Signature) :
    parametersOf (prettifySymbol (symbolText signature.name signature.parameters)) =
      signature.parameters.map prettifySymbol ↔
      ∀ parameter ∈ signature.parameters.tail, ¬ LooksDefaulted parameter := by
  constructor
  · intro same parameter member looks
    obtain ⟨kept, whole, isKept, fewer⟩ := signature.prettifySymbol_dropped ⟨parameter, member, looks⟩
    rw [whole, parametersOf_symbolText isKept] at same
    have length := congrArg List.length same
    rw [List.length_map] at length
    split at length
    · exact absurd length (Nat.ne_of_lt (Nat.zero_lt_of_lt fewer))
    · exact absurd length (Nat.ne_of_lt fewer)
  · intro others
    obtain ⟨whole, isKept⟩ := signature.prettifySymbol_kept others
    rw [whole, parametersOf_symbolText fun parameter member => (isKept parameter member).reads]
    cases kept : signature.parameters.map prettifySymbol with
    | nil => rfl
    | cons parameter later => exact if_neg (joined_ne_nil (isKept parameter (kept ▸ List.mem_cons_self)))

/-- `std::vector<int, std::allocator<int>>::vector(int, std::allocator<int> const&)` -/
def vectorConstructor : Signature where
  name := "std::vector<int, std::allocator<int>>::vector".toList
  parameters := ["int".toList, "std::allocator<int> const&".toList]
  isName := .closed ⟨⟨0, true⟩, by decide, rfl⟩
  types := by
    have qualified (identifier : Identifier) : IsQualified identifier.text := .identifier identifier
    have isInt : IsType "int".toList := .name (qualified ⟨"int".toList, by decide, by decide, by decide⟩)
    have isStd : IsQualified "std".toList := qualified ⟨"std".toList, by decide, by decide, by decide⟩
    have isAllocator : IsQualified "std::allocator".toList :=
        .qualified ⟨"allocator".toList, by decide, by decide, by decide⟩ isStd
    have list : IsType ("std::allocator".toList ++ '<' :: (joined ["int".toList] ++ ">".toList)) :=
      .template isAllocator (fun argument member => List.mem_singleton.mp member ▸ isInt) List.mem_cons_self
    have isConst : IsType ("std::allocator<int>".toList ++ " const".toList) := .suffixed list List.mem_cons_self
    have isReference : IsType ("std::allocator<int> const".toList ++ "&".toList) := .suffixed isConst (by decide)
    intro parameter member
    rcases List.mem_pair.mp member with rfl | rfl
    · exact isInt
    · exact isReference

/-- The allocator of a constructor is dropped, and its reference goes to the other parameter. -/
theorem parametersOf_prettifySymbol_fails :
    ¬ ∀ signature : Signature, parametersOf (prettifySymbol (symbolText signature.name signature.parameters)) =
      signature.parameters.map prettifySymbol := by
  intro always
  have dropped : parametersOf (prettifySymbol (symbolText vectorConstructor.name vectorConstructor.parameters)) =
      ["int const&".toList] := by
    decide +kernel
  have both := (always vectorConstructor).symm.trans dropped
  have length := congrArg List.length both
  exact absurd length (by decide)

end Cpptrace.Formatting
