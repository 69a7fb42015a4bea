import Cpptrace.Basic
import Cpptrace.Library.Joined

/-! `trim`, down to the arithmetic on positions.

A search that finds nothing gives `npos`, the largest size. One more than it is 0.
-/

set_option autoImplicit false

namespace Cpptrace.Utils

section Model

/-- What `substr` throws. -/
inductive OutOfRange where
  | outOfRange
  deriving DecidableEq, Repr

def npos : Nat := sizeModulus - 1

def whitespace : Text := " \t\n\r\x0c\x0b".toList

/-- `str.find_first_not_of(chars)`. -/
def findFirstNotOf (chars str : Text) : Nat := (str.findIdx? (· ∉ chars)).getD npos

/-- `str.find_last_not_of(chars)`. -/
def findLastNotOf (chars str : Text) : Nat :=
  ((str.reverse.findIdx? (· ∉ chars)).map (str.length - 1 - ·)).getD npos

/-- `str.substr(pos, count)`. -/
def substr (str : Text) (pos count : Nat) : Except OutOfRange Text :=
  if str.length < pos then throw .outOfRange else pure ((str.drop pos).take count)

def trim (str : Text) : Except OutOfRange Text :=
  if str = [] then pure []
  else
    let left := findFirstNotOf whitespace str
    let right := (findLastNotOf whitespace str + 1) % sizeModulus
    substr str left ((right + sizeModulus - left) % sizeModulus)

end Model

section Searches

variable {chars : Text}

theorem findIdx?_append_cons {front rest : Text} {c : Char} (skipped : ∀ c ∈ front, c ∈ chars) (other : c ∉ chars) :
    (front ++ c :: rest).findIdx? (· ∉ chars) = some front.length := by
  induction front with
  | nil => simp [List.findIdx?_cons, other]
  | cons first front ih =>
    have here : first ∈ chars := skipped first List.mem_cons_self
    have later := ih fun c member => skipped c (List.mem_cons_of_mem _ member)
    rw [List.cons_append, List.findIdx?_cons, later, if_neg (by simpa using here)]
    rfl

theorem findFirstNotOf_append_cons {front rest : Text} {c : Char} (skipped : ∀ c ∈ front, c ∈ chars)
    (other : c ∉ chars) :
    findFirstNotOf chars (front ++ c :: rest) = front.length := by
  rw [findFirstNotOf, findIdx?_append_cons skipped other, Option.getD_some]

theorem findLastNotOf_append_cons {before back : Text} {c : Char} (skipped : ∀ c ∈ back, c ∈ chars)
    (other : c ∉ chars) :
    findLastNotOf chars (before ++ c :: back) = before.length := by
  have turned : (before ++ c :: back).reverse = back.reverse ++ c :: before.reverse := by simp
  have found : (back.reverse ++ c :: before.reverse).findIdx? (· ∉ chars) = some back.reverse.length :=
    findIdx?_append_cons (fun c member => skipped c (List.mem_reverse.mp member)) other
  rw [findLastNotOf, turned, found, Option.map_some, Option.getD_some, List.length_append, List.length_cons,
    List.length_reverse]
  omega

theorem findFirstNotOf_none {str : Text} (none : ∀ c ∈ str, c ∈ chars) : findFirstNotOf chars str = npos := by
  have missing : str.findIdx? (· ∉ chars) = Option.none := by
    rw [List.findIdx?_eq_none_iff]
    intro c member
    simp [none c member]
  rw [findFirstNotOf, missing, Option.getD_none]

/-- A text with a character of another kind, cut at the first one. -/
theorem exists_first {str : Text} (visible : ∃ c ∈ str, c ∉ chars) :
    ∃ front c rest, str = front ++ c :: rest ∧ (∀ c ∈ front, c ∈ chars) ∧ c ∉ chars := by
  induction str with
  | nil =>
    obtain ⟨c, member, -⟩ := visible
    cases member
  | cons first str ih =>
    by_cases here : first ∈ chars
    · obtain ⟨c, member, other⟩ := visible
      have later : c ∈ str := (List.mem_cons.mp member).resolve_left fun same => other (same ▸ here)
      obtain ⟨front, found, rest, rfl, skipped, stops⟩ := ih ⟨c, later, other⟩
      exact ⟨first :: front, found, rest, rfl, List.forall_mem_cons.mpr ⟨here, skipped⟩, stops⟩
    · exact ⟨[], first, str, rfl, nofun, here⟩

theorem exists_last {str : Text} (visible : ∃ c ∈ str, c ∉ chars) :
    ∃ before c back, str = before ++ c :: back ∧ (∀ c ∈ back, c ∈ chars) ∧ c ∉ chars := by
  obtain ⟨c, member, other⟩ := visible
  have seen : ∃ c ∈ str.reverse, c ∉ chars := ⟨c, List.mem_reverse.mpr member, other⟩
  obtain ⟨front, found, rest, turned, skipped, stops⟩ := exists_first seen
  refine ⟨rest.reverse, found, front.reverse, ?_, fun c member => skipped c (List.mem_reverse.mp member), stops⟩
  rw [← List.reverse_reverse str, turned]
  simp

end Searches

section Trimming

/-- What is left of a text without its longest prefix and its longest suffix of whitespace. -/
structure Trimmed (str result : Text) : Prop where
  within : ∃ front back, str = front ++ result ++ back ∧ (∀ c ∈ front, c ∈ whitespace) ∧ ∀ c ∈ back, c ∈ whitespace
  first : ∀ c ∈ result.head?, c ∉ whitespace
  last : ∀ c ∈ result.getLast?, c ∉ whitespace

theorem Trimmed.eq_nil {str result : Text} (trimmed : Trimmed str result) (blank : ∀ c ∈ str, c ∈ whitespace) :
    result = [] := by
  obtain ⟨front, back, rfl, -, -⟩ := trimmed.within
  cases result with
  | nil => rfl
  | cons c rest => exact absurd (blank c (by simp)) (trimmed.first c rfl)

theorem dropWhile_append_cons {front rest : Text} {c : Char} (skipped : ∀ c ∈ front, c ∈ whitespace)
    (other : c ∉ whitespace) : (front ++ c :: rest).dropWhile (· ∈ whitespace) = c :: rest := by
  rw [List.dropWhile_append_of_pos (by simpa using skipped), List.dropWhile_cons_of_neg (by simpa using other)]

theorem Trimmed.eq_dropWhile {str result : Text} (trimmed : Trimmed str result) :
    result = (str.dropWhile (· ∈ whitespace)).rdropWhile (· ∈ whitespace) := by
  obtain ⟨front, back, rfl, frontBlank, backBlank⟩ := trimmed.within
  rcases List.eq_nil_or_concat result with rfl | ⟨inner, d, shape⟩
  · have blank : ∀ c ∈ front ++ [] ++ back, c ∈ whitespace := by
      rw [List.append_nil]
      exact fun c member => (List.mem_append.mp member).elim (frontBlank c) (backBlank c)
    rw [List.dropWhile_eq_nil_iff.mpr (by simpa using blank), List.rdropWhile_nil]
  · rw [List.concat_eq_append] at shape
    have last : d ∉ whitespace := trimmed.last d (by rw [shape, List.getLast?_concat]; rfl)
    cases result with
    | nil => simp at shape
    | cons c rest =>
      have first : c ∉ whitespace := trimmed.first c rfl
      have turned : (c :: rest ++ back).reverse = back.reverse ++ d :: inner.reverse := by
        rw [shape]
        simp
      have fromLeft : (front ++ c :: rest ++ back).dropWhile (· ∈ whitespace) = c :: rest ++ back := by
        rw [List.append_assoc, List.cons_append]
        exact dropWhile_append_cons frontBlank first
      rw [fromLeft, List.rdropWhile, turned,
        dropWhile_append_cons (fun c member => backBlank c (List.mem_reverse.mp member)) last, shape]
      simp

theorem trim_of_visible {front inner back : Text} {c d : Char} {rest : Text} (shape : c :: rest = inner ++ [d])
    (frontBlank : ∀ c ∈ front, c ∈ whitespace) (backBlank : ∀ c ∈ back, c ∈ whitespace)
    (first : c ∉ whitespace) (last : d ∉ whitespace) (small : (front ++ c :: rest ++ back).length < npos) :
    trim (front ++ c :: rest ++ back) = .ok (c :: rest) := by
  have nonempty : front ++ c :: rest ++ back ≠ [] := by simp
  have left : findFirstNotOf whitespace (front ++ c :: rest ++ back) = front.length := by
    rw [List.append_assoc, List.cons_append]
    exact findFirstNotOf_append_cons frontBlank first
  have right : findLastNotOf whitespace (front ++ c :: rest ++ back) = front.length + inner.length := by
    rw [shape, ← List.append_assoc, List.append_assoc, List.singleton_append, findLastNotOf_append_cons backBlank last,
      List.length_append]
  have size : (c :: rest).length = inner.length + 1 := by rw [shape, List.length_append, List.length_singleton]
  have length : (front ++ c :: rest ++ back).length = front.length + (c :: rest).length + back.length := by
    rw [List.length_append, List.length_append]
  have count : ((front.length + inner.length + 1) % sizeModulus + sizeModulus - front.length) % sizeModulus =
      (c :: rest).length := by
    unfold npos sizeModulus at *
    omega
  rw [trim, if_neg nonempty, left, right]
  -- neither the sum nor the difference of the two positions wraps
  simp only [count]
  rw [substr, if_neg (by omega), List.append_assoc, List.drop_left, List.take_left]
  rfl

theorem trim_of_blank {str : Text} (nonempty : str ≠ []) (blank : ∀ c ∈ str, c ∈ whitespace)
    (small : str.length < npos) :
    trim str = .error .outOfRange := by
  rw [trim, if_neg nonempty]
  simp only [findFirstNotOf_none blank]
  rw [substr, if_pos small]
  rfl

/-- What `trim` should do with a text. -/
structure TrimsProperly (str result : Text) : Prop where
  returns : trim str = .ok result
  trimmed : Trimmed str result
  blank : (∀ c ∈ str, c ∈ whitespace) → result = []
  idempotent : trim result = .ok result

theorem exists_trimsProperly {str : Text} (visible : ∃ c ∈ str, c ∉ whitespace) (small : str.length < npos) :
    ∃ result, TrimsProperly str result := by
  obtain ⟨front, c, behind, rfl, frontBlank, first⟩ := exists_first visible
  obtain ⟨inner, d, back, same, backBlank, last⟩ := exists_last ⟨c, List.mem_cons_self (l := behind), first⟩
  obtain ⟨rest, shape⟩ : ∃ rest, c :: rest = inner ++ [d] := by
    cases inner with
    | nil => exact ⟨[], by rw [(List.cons.inj same).1]; rfl⟩
    | cons e inner => exact ⟨inner ++ [d], by rw [(List.cons.inj same).1]; rfl⟩
  have whole : front ++ c :: behind = front ++ c :: rest ++ back := by
    rw [same, shape, List.append_assoc, List.append_assoc, List.singleton_append]
  rw [whole] at small ⊢
  have trimmed : Trimmed (front ++ c :: rest ++ back) (c :: rest) := by
    refine ⟨⟨front, back, rfl, frontBlank, backBlank⟩, ?_, ?_⟩
    · rintro _ ⟨⟩
      exact first
    · rw [shape, List.getLast?_concat]
      rintro _ ⟨⟩
      exact last
  have smaller : ([] ++ c :: rest ++ []).length < npos := by
    rw [List.length_append, List.length_append] at small
    rw [List.nil_append, List.append_nil]
    omega
  have again : trim ([] ++ c :: rest ++ []) = .ok (c :: rest) :=
    trim_of_visible shape nofun nofun first last smaller
  rw [List.nil_append, List.append_nil] at again
  exact ⟨c :: rest, trim_of_visible shape frontBlank backBlank first last small, trimmed, trimmed.eq_nil, again⟩

/-- What is trimmed properly is what is left between the whitespace at the ends. -/
theorem trim_eq {str : Text} (visible : ¬ Library.Blank (· ∈ whitespace) str) (small : str.length < npos) :
    trim str = .ok (Library.trimmed (· ∈ whitespace) str) := by
  obtain ⟨c, member, other⟩ := Library.not_blank_iff.mp visible
  obtain ⟨result, proper⟩ := exists_trimsProperly ⟨c, member, of_decide_eq_false other⟩ small
  rw [proper.returns, Library.trimmed, ← proper.trimmed.eq_dropWhile]

end Trimming

/-- A text is trimmed properly unless it is whitespace and nothing else. -/
theorem trims_iff {str : Text} (small : str.length < npos) :
    (∃ result, TrimsProperly str result) ↔ str = [] ∨ ∃ c ∈ str, c ∉ whitespace := by
  constructor
  · rintro ⟨result, proper⟩
    by_contra neither
    obtain ⟨nonempty, hidden⟩ := not_or.mp neither
    have blank : ∀ c ∈ str, c ∈ whitespace := fun c member => by_contra fun other => hidden ⟨c, member, other⟩
    -- `npos` is beyond the end of every text
    have thrown := trim_of_blank nonempty blank small
    rw [proper.returns] at thrown
    cases thrown
  · rintro (rfl | visible)
    · exact ⟨[], rfl, ⟨⟨[], [], rfl, nofun, nofun⟩, nofun, nofun⟩, fun _ => rfl, rfl⟩
    · exact exists_trimsProperly visible small

theorem trims_iff_at_test : ∃ result, TrimsProperly "\t   test\n ".toList result :=
  (trims_iff (by decide)).mpr (.inr ⟨'t', by decide, by decide⟩)

/-- A newline alone is taken from beyond its end. -/
theorem trim_throws : trim "\n".toList = .error .outOfRange ∧ ¬ ∃ result, TrimsProperly "\n".toList result := by
  refine ⟨rfl, ?_⟩
  rintro ⟨result, proper⟩
  exact absurd proper.returns nofun

end Cpptrace.Utils
