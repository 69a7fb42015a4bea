import Cpptrace.Library.Settling

/-! Types as C and C++ write them: a name and a declarator around it.

What stands in a declarator nearest to the middle is said of the type first. Reading a
declarator gives what it makes of the type that the name stands for.
-/

set_option autoImplicit false

namespace Cpptrace.Library

inductive CType (Name Operator Length : Type) where
  | name (name : Name)
  | pointer (operator : Operator) (target : CType Name Operator Length)
  | array (length : Length) (element : CType Name Operator Length)
  | function (result : CType Name Operator Length) (parameters : List (CType Name Operator Length))

namespace Declarators

inductive Token (Name Operator Length : Type) where
  | name (name : Name)
  | operator (operator : Operator)
  | length (length : Length)
  | opens
  | closes
  | comma
  deriving DecidableEq, Repr

variable {Name Operator Length : Type}

section Reading

def opensGroup : List (Token Name Operator Length) → Bool
  | .opens :: .name _ :: _ => false
  | .opens :: .closes :: _ => false
  | .opens :: _ => true
  | _ => false

abbrev Wraps (Name Operator Length : Type) := CType Name Operator Length → CType Name Operator Length

mutual

def readType : Nat → List (Token Name Operator Length) →
    Option (CType Name Operator Length × List (Token Name Operator Length))
  | 0, _ => none
  | fuel + 1, .name name :: rest => do
      let (wraps, rest) ← readDeclarator fuel rest
      return (wraps (.name name), rest)
  | _ + 1, _ => none

def readDeclarator : Nat → List (Token Name Operator Length) →
    Option (Wraps Name Operator Length × List (Token Name Operator Length))
  | 0, _ => none
  | fuel + 1, .operator operator :: rest => do
      let (wraps, rest) ← readDeclarator fuel rest
      return (fun type => wraps (.pointer operator type), rest)
  | fuel + 1, tokens =>
      if opensGroup tokens then do
        let (inner, rest) ← readDeclarator fuel tokens.tail
        match rest with
        | .closes :: rest => do
            let (suffixes, rest) ← readSuffixes fuel rest
            return (fun type => inner (suffixes type), rest)
        | _ => none
      else readSuffixes fuel tokens

def readSuffixes : Nat → List (Token Name Operator Length) →
    Option (Wraps Name Operator Length × List (Token Name Operator Length))
  | 0, _ => none
  | fuel + 1, .length length :: rest => do
      let (others, rest) ← readSuffixes fuel rest
      return (fun type => .array length (others type), rest)
  | fuel + 1, .opens :: .closes :: rest => do
      let (others, rest) ← readSuffixes fuel rest
      return (fun type => .function (others type) [], rest)
  | fuel + 1, .opens :: rest => do
      let (parameters, rest) ← readParameters fuel rest
      let (others, rest) ← readSuffixes fuel rest
      return (fun type => .function (others type) parameters, rest)
  | _ + 1, tokens => some (id, tokens)

def readParameters : Nat → List (Token Name Operator Length) →
    Option (List (CType Name Operator Length) × List (Token Name Operator Length))
  | 0, _ => none
  | fuel + 1, tokens => do
      let (parameter, rest) ← readType fuel tokens
      match rest with
      | .comma :: rest => do
          let (others, rest) ← readParameters fuel rest
          return (parameter :: others, rest)
      | .closes :: rest => return ([parameter], rest)
      | _ => none

end

end Reading

section Rules

def ends : List (Token Name Operator Length) → Bool
  | [] => true
  | .closes :: _ => true
  | .comma :: _ => true
  | _ => false

def follows : List (Token Name Operator Length) → Bool
  | .operator _ :: _ => false
  | tokens => !opensGroup tokens

theorem follows_of_ends {rest : List (Token Name Operator Length)} (ended : ends rest = true) :
    follows rest = true := by
  cases rest with
  | nil => rfl
  | cons first rest =>
    cases first
    case opens => exact absurd ended Bool.false_ne_true
    all_goals first | rfl | exact ended

theorem readSuffixes_of_ends {rest : List (Token Name Operator Length)} (ended : ends rest = true) :
    EndsIn (fun fuel => readSuffixes fuel rest) (some (id, rest)) := by
  refine EndsIn.succ ?_
  cases rest with
  | nil => exact EndsIn.const _
  | cons first rest => cases first <;> first | exact EndsIn.const _ | exact absurd ended Bool.false_ne_true

def Declares (tokens : List (Token Name Operator Length)) (wraps : Wraps Name Operator Length) : Prop :=
  ∀ rest, ends rest = true → EndsIn (fun fuel => readDeclarator fuel (tokens ++ rest)) (some (wraps, rest))

/-- So are the tokens with suffixes after them, which are said of it before what the tokens say. -/
def DeclaresBefore (tokens : List (Token Name Operator Length)) (wraps : Wraps Name Operator Length) : Prop :=
  ∀ suffixes others rest, follows suffixes = true →
    EndsIn (fun fuel => readSuffixes fuel suffixes) (some (others, rest)) →
    EndsIn (fun fuel => readDeclarator fuel (tokens ++ suffixes)) (some (fun type => wraps (others type), rest))

structure Spells (tokens : List (Token Name Operator Length)) (type : CType Name Operator Length) : Prop where
  starts : ∃ name rest, tokens = .name name :: rest
  reads : ∀ rest, ends rest = true → EndsIn (fun fuel => readType fuel (tokens ++ rest)) (some (type, rest))

variable {tokens : List (Token Name Operator Length)} {wraps : Wraps Name Operator Length}

theorem DeclaresBefore.declares (declares : DeclaresBefore tokens wraps) : Declares tokens wraps :=
  fun rest ended => declares rest id rest (follows_of_ends ended) (readSuffixes_of_ends ended)

theorem readDeclarator_of_follows {suffixes : List (Token Name Operator Length)} (allowed : follows suffixes = true)
    (fuel : Nat) : readDeclarator (fuel + 1) suffixes = readSuffixes fuel suffixes := by
  cases suffixes with
  | nil => rfl
  | cons first suffixes =>
    cases first
    case operator => exact absurd allowed Bool.false_ne_true
    case opens =>
      have lists : opensGroup (.opens :: suffixes) = false := by simpa [follows] using allowed
      rw [readDeclarator, if_neg (by rw [lists]; exact Bool.false_ne_true)]
      simp
    all_goals rfl

theorem DeclaresBefore.nil : DeclaresBefore ([] : List (Token Name Operator Length)) id := by
  intro suffixes others rest allowed reads
  refine EndsIn.succ ?_
  simp only [List.nil_append, readDeclarator_of_follows allowed]
  exact reads

theorem Declares.pointer (declares : Declares tokens wraps) (operator : Operator) :
    Declares (.operator operator :: tokens) fun type => wraps (.pointer operator type) := by
  intro rest ended
  exact EndsIn.succ ((declares rest ended).bind (EndsIn.const _))

theorem Declares.group {operator : Operator} (declares : Declares (.operator operator :: tokens) wraps) :
    DeclaresBefore (.opens :: .operator operator :: tokens ++ [.closes]) wraps := by
  intro suffixes others rest allowed reads
  have inner := declares (.closes :: suffixes) rfl
  rw [List.append_assoc]
  exact EndsIn.succ (inner.bind (reads.bind (EndsIn.const _)))

theorem DeclaresBefore.array (declares : DeclaresBefore tokens wraps) (length : Length) :
    DeclaresBefore (tokens ++ [.length length]) fun type => wraps (.array length type) := by
  intro suffixes others rest allowed reads
  have longer : EndsIn (fun fuel => readSuffixes fuel (.length length :: suffixes))
      (some (fun type => .array length (others type), rest)) := EndsIn.succ (reads.bind (EndsIn.const _))
  have whole := declares (.length length :: suffixes) _ rest rfl longer
  rw [List.append_assoc, List.singleton_append]
  exact whole

def separated : List (List (Token Name Operator Length)) → List (Token Name Operator Length)
  | [] => []
  | first :: rest => first ++ rest.flatMap (.comma :: ·)

theorem readParameters_separated {spellings : List (List (Token Name Operator Length))}
    {spelling : List (Token Name Operator Length)}
    {type : CType Name Operator Length} {types : List (CType Name Operator Length)} (first : Spells spelling type)
    (others : List.Forall₂ Spells spellings types) (rest : List (Token Name Operator Length)) :
    EndsIn (fun fuel => readParameters fuel (separated (spelling :: spellings) ++ .closes :: rest))
      (some (type :: types, rest)) := by
  induction others generalizing spelling type with
  | nil =>
    rw [separated, List.flatMap_nil, List.append_nil]
    exact EndsIn.succ ((first.reads (.closes :: rest) rfl).bind (EndsIn.const _))
  | cons next others ih =>
    rename_i spelling' type' spellings types
    have shape : separated (spelling :: spelling' :: spellings) ++ .closes :: rest =
        spelling ++ .comma :: (separated (spelling' :: spellings) ++ .closes :: rest) := by
      simp [separated]
    rw [shape]
    exact EndsIn.succ ((first.reads _ rfl).bind ((ih next).bind (EndsIn.const _)))

theorem DeclaresBefore.function (declares : DeclaresBefore tokens wraps)
    {spellings : List (List (Token Name Operator Length))} {types : List (CType Name Operator Length)}
    (spelled : List.Forall₂ Spells spellings types) :
    DeclaresBefore (tokens ++ .opens :: separated spellings ++ [.closes]) fun type => wraps (.function type types) := by
  intro suffixes others rest allowed reads
  have shape : tokens ++ .opens :: separated spellings ++ [.closes] ++ suffixes =
      tokens ++ .opens :: (separated spellings ++ .closes :: suffixes) := by simp
  rw [shape]
  cases spelled with
  | nil => exact declares _ _ rest rfl (EndsIn.succ (reads.bind (EndsIn.const _)))
  | cons first spelled =>
    obtain ⟨name, after, rfl⟩ := first.starts
    refine declares _ (fun type => .function (others type) _) rest rfl (EndsIn.succ ?_)
    exact (readParameters_separated first spelled suffixes).bind (reads.bind (EndsIn.const _))

end Rules

section Around

/-- What stands left and right of any declarator, where the whole is the type it is said of. If something stands
right of it, it is put where a suffix may follow. -/
def Around (type : CType Name Operator Length) (name : Name) (left right : List (Token Name Operator Length)) : Prop :=
  ∀ tokens wraps, (DeclaresBefore tokens wraps ∨ right = [] ∧ Declares tokens wraps) →
    ∃ whole : Wraps Name Operator Length, Declares (left ++ tokens ++ right) whole ∧ whole (.name name) = wraps type

namespace Around

variable {type : CType Name Operator Length} {name : Name} {left right : List (Token Name Operator Length)}

theorem nil (name : Name) : Around (.name name : CType Name Operator Length) name [] [] := by
  intro tokens wraps declares
  rw [List.nil_append, List.append_nil]
  refine ⟨wraps, ?_, rfl⟩
  rcases declares with before | ⟨-, alone⟩
  · exact before.declares
  · exact alone

theorem pointer (around : Around type name left []) (operator : Operator) :
    Around (.pointer operator type) name (left ++ [.operator operator]) [] := by
  intro tokens wraps declares
  have alone : Declares tokens wraps := declares.elim DeclaresBefore.declares fun ⟨_, alone⟩ => alone
  have whole := around _ _ (.inr ⟨rfl, alone.pointer operator⟩)
  rw [List.append_assoc left]
  exact whole

theorem group (around : Around type name left right) (operator : Operator) :
    Around (.pointer operator type) name (left ++ [.opens, .operator operator]) (.closes :: right) := by
  intro tokens wraps declares
  have before : DeclaresBefore tokens wraps := declares.resolve_right fun absurd => List.cons_ne_nil _ _ absurd.1
  have whole := around _ _ (.inl (before.declares.pointer operator).group)
  have shape : left ++ [.opens, .operator operator] ++ tokens ++ .closes :: right =
      left ++ (.opens :: .operator operator :: tokens ++ [.closes]) ++ right := by simp
  rw [shape]
  exact whole

theorem array (around : Around type name left right) (length : Length) :
    Around (.array length type) name left (.length length :: right) := by
  intro tokens wraps declares
  have before : DeclaresBefore tokens wraps := declares.resolve_right fun absurd => List.cons_ne_nil _ _ absurd.1
  have whole := around _ _ (.inl (before.array length))
  have shape : left ++ tokens ++ .length length :: right = left ++ (tokens ++ [.length length]) ++ right := by simp
  rw [shape]
  exact whole

theorem function (around : Around type name left right) {spellings : List (List (Token Name Operator Length))}
    {types : List (CType Name Operator Length)} (spelled : List.Forall₂ Spells spellings types) :
    Around (.function type types) name left (.opens :: separated spellings ++ .closes :: right) := by
  intro tokens wraps declares
  have before : DeclaresBefore tokens wraps := declares.resolve_right fun absurd => List.cons_ne_nil _ _ absurd.1
  have whole := around _ _ (.inl (before.function spelled))
  have shape : left ++ tokens ++ (.opens :: separated spellings ++ .closes :: right) =
      left ++ (tokens ++ .opens :: separated spellings ++ [.closes]) ++ right := by simp
  rw [shape]
  exact whole

theorem spells (around : Around type name left right) : Spells (.name name :: left ++ right) type where
  starts := ⟨name, left ++ right, rfl⟩
  reads rest ended := by
    obtain ⟨whole, declares, same⟩ := around [] id (.inl .nil)
    rw [List.append_nil] at declares
    have read : EndsIn (fun fuel => readType fuel (.name name :: (left ++ right ++ rest)))
        (some (whole (.name name), rest)) :=
      EndsIn.succ ((declares rest ended).bind (EndsIn.const _))
    rw [same] at read
    exact read

end Around

end Around

end Declarators

end Cpptrace.Library
