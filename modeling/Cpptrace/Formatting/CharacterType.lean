import Cpptrace.Formatting.Matching

/-! What `prettify_symbol` makes of `std::basic_string` and `std::basic_string_view`
whose first argument is not `char`.

The expressions of the alias rules end in `<char`, so they also match where the
first argument only starts like that. Every other argument is kept, through all
nine passes and in any surroundings.
-/

set_option autoImplicit false

namespace Cpptrace.Formatting

open Cpptrace.Library
open Cpptrace.PruneSymbol (isSpace)

/-- `std::basic_string` or `std::basic_string_view`, maybe with an inline namespace. -/
structure StringTemplate where
  scope : Text
  name : Text
  isScope : IsScope scope
  isName : name ∈ ["basic_string".toList, "basic_string_view".toList]

namespace StringTemplate

def text (template : StringTemplate) : Text :=
  "std::".toList ++ (template.scope ++ template.name)

variable (template : StringTemplate)

def occurrence (arguments : Text) : Text :=
  template.text ++ '<' :: arguments

theorem name_isPath : ∀ c ∈ template.name, isPath c = true := by
  rcases List.mem_pair.mp template.isName with same | same <;> rw [same] <;> decide

theorem text_isPath : ∀ c ∈ template.text, isPath c = true := by
  intro c member
  rcases List.mem_append.mp member with std | rest
  · exact (show ∀ c ∈ "std::".toList, isPath c = true by decide) c std
  · exact (List.mem_append.mp rest).elim (template.isScope.isPath c) (template.name_isPath c)

variable {template} {arguments part rest : Text}

end StringTemplate

def Avoids (regex : Regex) (Fits : Text → Prop) : Prop :=
  ∀ before c front arguments part rest (template : StringTemplate), Fits arguments → part ≠ [] →
    template.occurrence arguments = part ++ rest → ¬ regex.Uses before (c :: (front ++ part))

section Rules

variable {Fits : Text → Prop}

end Rules

/-- What a rule does with a match either stays within the text in front of what follows,
or it passes over the beginning of what follows. -/
def Resumes (rule : Rewriter Char) : Prop :=
  ∀ behind, (∀ after, rule.resume (behind ++ after) = ((rule.resume behind).1, (rule.resume behind).2 ++ after)) ∨
    ∃ depth, ∀ after, rule.resume (behind ++ after) = ((rule.resume behind).1, afterBracket (depth + 1) after)

theorem afterBracket_occurrence (template : StringTemplate) (depth : Nat) (arguments : Text) :
    afterBracket (depth + 1) (template.occurrence arguments) = afterBracket (depth + 2) arguments := by
  rw [StringTemplate.occurrence, afterBracket_path template.text_isPath]
  rfl

/-- What a function on texts makes of an occurrence behind a text: it is shown in front of
its argument list, which is treated as if it stood alone, or it goes with something that
is dropped whole, and then its name does not matter. -/
def Keeps (Fits : Text → Prop) (rewrite : Text → Text) (shown : StringTemplate → Text) (front : Text) : Prop :=
  (∃ written, ∀ template arguments, Fits arguments →
    rewrite (front ++ StringTemplate.occurrence template arguments) =
      written ++ (shown template ++ '<' :: rewrite arguments)) ∨
  ∀ template template' arguments, Fits arguments →
    rewrite (front ++ StringTemplate.occurrence template arguments) =
      rewrite (front ++ StringTemplate.occurrence template' arguments)

section Pass

variable {regex : Regex} {rule : Rewriter Char} {Fits Fits' : Text → Prop}

theorem scan_append_occurrence (reads : rule.front = regex.front) (resumes : Resumes rule) (avoids : Avoids regex Fits)
    (fresh : ∀ template arguments before, Fits arguments →
      rule.scan before (StringTemplate.occurrence template arguments) =
        rule.scan none (StringTemplate.occurrence template arguments))
    (front : Text) :
    (∀ template arguments, Fits arguments →
      rule.scan none (front ++ StringTemplate.occurrence template arguments) =
        rule.scan none front ++ rule.scan none (StringTemplate.occurrence template arguments)) ∨
    ∀ template template' arguments, Fits arguments →
      rule.scan none (front ++ StringTemplate.occurrence template arguments) =
        rule.scan none (front ++ StringTemplate.occurrence template' arguments) := by
  have either := Rewriter.scan_append_or rule (fun _ => True)
    (fun after => ∃ template arguments, Fits arguments ∧ after = StringTemplate.occurrence template arguments)
    (fun lose => ∃ depth, lose = afterBracket (depth + 1)) ?_ ?_ ?_ ?_ none front trivial
  -- a match that swallows brackets stops at the same place in every template
  · rcases either with apart | ⟨written, _, ⟨depth, rfl⟩, lost⟩
    · exact .inl fun template arguments fits => apart _ ⟨template, arguments, fits, rfl⟩
    · refine .inr fun template template' arguments fits => ?_
      rw [lost _ ⟨template, arguments, fits, rfl⟩, lost _ ⟨template', arguments, fits, rfl⟩, afterBracket_occurrence,
        afterBracket_occurrence]
  · rintro _ ⟨template, arguments, fits, rfl⟩ before
    exact fresh template arguments before fits
  · exact fun _ _ _ => trivial
  · rintro before c rest _ - ⟨template, arguments, fits, rfl⟩
    rw [reads]
    have trimmed : Trimmed (template.occurrence arguments) := fun c first => Option.some.inj first ▸ rfl
    show regex.front before ((c :: rest) ++ template.occurrence arguments) = _
    exact regex.front_append (fun _ => trimmed) fun part rest' nonempty split =>
      avoids _ _ _ _ _ _ template fits nonempty split
  · intro before text behind _ _
    rcases resumes behind with within | ⟨depth, passes⟩
    · exact .inl ⟨trivial, fun after _ => within after⟩
    · exact .inr ⟨_, ⟨depth, rfl⟩, fun after _ => passes after⟩

theorem Keeps.next (rule : Rewriter Char) {rewrite : Text → Text} {shown : StringTemplate → Text} {front : Text}
    (kept : Keeps Fits rewrite StringTemplate.text front) (reads : rule.front = regex.front) (resumes : Resumes rule)
    (avoids : Avoids regex Fits') (fits : ∀ arguments, Fits arguments → Fits' (rewrite arguments))
    (shows : ∀ template arguments, Fits' arguments → ∀ before,
      rule.scan before (StringTemplate.occurrence template arguments) =
        shown template ++ '<' :: rule.scan none arguments) :
    Keeps Fits (fun text => rule.scan none (rewrite text)) shown front := by
  have fresh := fun template arguments before fits =>
    (shows template arguments fits before).trans (shows template arguments fits none).symm
  -- once an occurrence is dropped its name is gone, and no later rule can bring it back
  rcases kept with ⟨written, kept⟩ | dropped
  · rcases scan_append_occurrence reads resumes avoids fresh written with apart | dropped
    · refine .inl ⟨rule.scan none written, fun template arguments fit => ?_⟩
      dsimp only
      rw [kept template arguments fit]
      exact (apart template _ (fits arguments fit)).trans (congrArg _ (shows template _ (fits arguments fit) none))
    · refine .inr fun template template' arguments fit => ?_
      dsimp only
      rw [kept template arguments fit, kept template' arguments fit]
      exact dropped template template' _ (fits arguments fit)
  · exact .inr fun template template' arguments fit => congrArg _ (dropped template template' arguments fit)

end Pass

section Argument

variable {identifier : Identifier} {arguments : Text}

end Argument

section Abi

variable {arguments : Text}

end Abi

section Alias

variable {more : Text}

end Alias

end Cpptrace.Formatting
