import Cpptrace.PruneSymbol.Reads

/-! Which texts are read as one token, and what may follow them. -/

set_option autoImplicit false

namespace Cpptrace.PruneSymbol

def isIdentifier : Text → Bool
  | [] => false
  | c :: rest => isIdentifierStart c && rest.all isIdentifierContinue

def isNumber : Text → Bool
  | [] => false
  | c :: rest => c.isDigit && rest.all isNumberContinue

def Extends (str : Text) (c : Char) : Prop :=
  ∃ punctuation ∈ punctuatorsAndOperators, str ++ [c] <+: punctuation

instance (str : Text) (c : Char) : Decidable (Extends str c) :=
  inferInstanceAs (Decidable (∃ punctuation ∈ punctuatorsAndOperators, str ++ [c] <+: punctuation))

theorem startsWith_iff (source text : Text) : startsWith source text = true ↔ text <+: source := by
  unfold startsWith
  rw [decide_eq_true_iff, List.prefix_iff_eq_take]

theorem startsWith_append (str rest punctuation : Text)
    (listed : punctuation ∈ punctuatorsAndOperators) (ends : ∀ c ∈ rest.head?, ¬ Extends str c) :
    startsWith (str ++ rest) punctuation = startsWith str punctuation := by
  rw [Bool.eq_iff_iff, startsWith_iff, startsWith_iff]
  constructor
  · intro fits
    apply (List.prefix_or_prefix_of_prefix fits (List.prefix_append str rest)).elim id
    rintro ⟨more, rfl⟩
    cases more with
    | nil => simp
    | cons c more =>
      -- the punctuator would go on with the first character of `rest`
      have continues := (List.prefix_append_right_inj str).mp fits
      have head : c ∈ rest.head? := by
        obtain ⟨tail, rfl⟩ := continues
        rfl
      refine absurd ⟨_, listed, more, ?_⟩ (ends c head)
      simp
  · intro fits
    exact fits.trans (List.prefix_append str rest)

theorem peekPunctuation_append (str rest : Text) (listed : str ∈ punctuatorsAndOperators)
    (ends : ∀ c ∈ rest.head?, ¬ Extends str c) :
    peekPunctuation (str ++ rest) = some ⟨.punctuation, str⟩ := by
  have alone : ∀ str ∈ punctuatorsAndOperators,
      punctuatorsAndOperators.find? (startsWith str) = some str := by decide +kernel
  have found : punctuatorsAndOperators.find? (startsWith (str ++ rest)) = some str := by
    rw [← List.head?_filter, List.filter_congr fun punctuation member =>
      startsWith_append str rest punctuation member ends, List.head?_filter, alone str listed]
  unfold peekPunctuation
  rw [found, Option.map_some, List.take_left]

def isPunctuatorStart (c : Char) : Bool :=
  !isSpace c && !c.isDigit && !isIdentifierStart c && c ≠ '`' && c ≠ '\'' && c ≠ '"'

theorem isPunctuatorStart_of_mem : ∀ str ∈ punctuatorsAndOperators,
    str.head?.any isPunctuatorStart = true := by
  decide

theorem isDigit_of_isIdentifierStart (c : Char) (start : isIdentifierStart c = true) :
    c.isDigit = false := by
  simp only [isIdentifierStart, Bool.or_eq_true, decide_eq_true_eq] at start
  obtain (letter | rfl) | rfl := start
  · have ranges : (decide (c.val ≥ 65 ∧ c.val ≤ 90) ||
        decide (c.val ≥ 97) && decide (c.val ≤ 122)) = true := letter
    simp only [Char.isDigit]
    grind
  · decide
  · decide

section Fronts

variable (c : Char) (rest : Text)

theorem peekAnonymousNamespace_cons (quote : c ≠ '`') (opening : c = '(' → rest.head? ≠ some 'a') :
    peekAnonymousNamespace (c :: rest) = none := by
  unfold peekAnonymousNamespace
  rw [Option.map_eq_none_iff, List.find?_eq_none]
  intro spelling listed fits
  rw [startsWith_iff] at fits
  obtain ⟨after, fits⟩ := fits
  have spellings : spelling = "(anonymous namespace)".toList ∨
      spelling = "`anonymous namespace'".toList := by
    simpa [anonymousNamespaceSpellings] using listed
  cases spellings with
  | inl parenthesis =>
    subst parenthesis
    cases fits
    exact opening rfl rfl
  | inr quoted =>
    subst quoted
    cases fits
    exact quote rfl

theorem peekLiteral_cons (digit : c.isDigit = false) (msvc : c ≠ '`') (single : c ≠ '\'')
    (double : c ≠ '"') : peekLiteral (c :: rest) = .ok none := by
  simp [peekLiteral, peekNumber, peekMsvcString, parseQuotedString, digit, msvc, single, double,
    pure, Except.pure, bind, Except.bind]

theorem peekPunctuation_cons (start : isIdentifierStart c = true) :
    peekPunctuation (c :: rest) = none := by
  unfold peekPunctuation
  rw [Option.map_eq_none_iff, List.find?_eq_none]
  intro punctuation listed fits
  rw [startsWith_iff] at fits
  obtain ⟨after, fits⟩ := fits
  have starts := isPunctuatorStart_of_mem _ listed
  cases punctuation with
  | nil => cases starts
  | cons first punctuation =>
    cases fits
    simp [isPunctuatorStart, start] at starts

end Fronts

theorem takeWhile_whole (test : Char → Bool) (str rest : Text) (all : str.all test = true)
    (ends : ∀ c ∈ rest.head?, test c = false) : (str ++ rest).takeWhile test = str := by
  rw [List.takeWhile_append_of_pos (List.all_eq_true.mp all)]
  cases rest with
  | nil => simp
  | cons c rest => rw [List.takeWhile_cons, ends c rfl]; simp

theorem tokenAt_identifier (name rest : Text) (valid : isIdentifier name = true)
    (ends : ∀ c ∈ rest.head?, isIdentifierContinue c = false) :
    tokenAt (name ++ rest) = .ok (.identifier name) := by
  cases name with
  | nil => cases valid
  | cons c name =>
    obtain ⟨start, continues⟩ := Bool.and_eq_true_iff.mp valid
    have other (d : Char) (different : isIdentifierStart d = false) : c ≠ d := by
      rintro rfl
      rw [start] at different
      cases different
    have whole : ((c :: name) ++ rest).takeWhile isIdentifierContinue = c :: name := by
      apply takeWhile_whole _ _ _ _ ends
      simp only [List.all_cons, continues, isIdentifierContinue, start, Bool.or_true, Bool.and_true]
    have anonymous : peekAnonymousNamespace (c :: (name ++ rest)) = none := by
      apply peekAnonymousNamespace_cons _ _ (other _ (by decide))
      intro opening
      exact absurd opening (other _ (by decide))
    have literal : peekLiteral (c :: (name ++ rest)) = .ok none :=
      peekLiteral_cons _ _ (isDigit_of_isIdentifierStart c start) (other _ (by decide))
        (other _ (by decide)) (other _ (by decide))
    rw [List.cons_append] at whole ⊢
    simp only [tokenAt, anonymous, literal, peekPunctuation_cons _ _ start, peekIdentifier, start,
      if_true, whole]
    rfl

theorem tokenAt_number (number rest : Text) (valid : isNumber number = true)
    (ends : ∀ c ∈ rest.head?, isNumberContinue c = false) :
    tokenAt (number ++ rest) = .ok (.literal number) := by
  cases number with
  | nil => cases valid
  | cons c number =>
    obtain ⟨digit, continues⟩ := Bool.and_eq_true_iff.mp valid
    have other (d : Char) (different : d.isDigit = false) : c ≠ d := by
      rintro rfl
      rw [digit] at different
      cases different
    have whole : ((c :: number) ++ rest).takeWhile isNumberContinue = c :: number := by
      apply takeWhile_whole _ _ _ _ ends
      simp only [List.all_cons, continues, isNumberContinue, digit, Bool.true_or, Bool.and_true]
    have anonymous : peekAnonymousNamespace (c :: (number ++ rest)) = none := by
      apply peekAnonymousNamespace_cons _ _ (other _ (by decide))
      intro opening
      exact absurd opening (other _ (by decide))
    rw [List.cons_append] at whole ⊢
    simp only [tokenAt, anonymous, peekLiteral, peekNumber, digit, if_true, whole]
    rfl

theorem tokenAt_punctuator (str rest : Text) (listed : str ∈ punctuatorsAndOperators)
    (ends : ∀ c ∈ rest.head?, ¬ Extends str c)
    (opening : str = "(".toList → rest.head? ≠ some 'a') :
    tokenAt (str ++ rest) = .ok ⟨.punctuation, str⟩ := by
  have starts := isPunctuatorStart_of_mem _ listed
  have punctuation := peekPunctuation_append str rest listed ends
  have parenthesis : ∀ str ∈ punctuatorsAndOperators, str.head? = some '(' → str = "(".toList := by
    decide
  cases str with
  | nil => cases starts
  | cons c str =>
    simp only [List.head?_cons, Option.any_some, isPunctuatorStart, Bool.and_eq_true,
      Bool.not_eq_true', decide_eq_true_eq] at starts
    obtain ⟨⟨⟨⟨⟨-, digit⟩, -⟩, msvc⟩, single⟩, double⟩ := starts
    have anonymous : peekAnonymousNamespace (c :: (str ++ rest)) = none := by
      apply peekAnonymousNamespace_cons _ _ msvc
      rintro rfl
      have alone := parenthesis _ listed rfl
      cases alone
      exact opening rfl
    have literal : peekLiteral (c :: (str ++ rest)) = .ok none :=
      peekLiteral_cons _ _ digit msvc single double
    rw [List.cons_append] at punctuation ⊢
    simp only [tokenAt, anonymous, literal, punctuation]
    rfl

def SpaceOrEnd (rest : Text) : Prop := ∀ c ∈ rest.head?, c = ' '

structure Standalone (token : Token) : Prop where
  front : token.str.head?.any (!isSpace ·) = true
  reads : ∀ rest, SpaceOrEnd rest → tokenAt (token.str ++ rest) = .ok token

theorem isSpace_false (test : Char → Bool) (c : Char) (holds : test c = true)
    (never : [' ', '\t', '\n', '\r', '\x0b', '\x0c'].all (!test ·) = true) : isSpace c = false := by
  rw [Bool.eq_false_iff]
  intro space
  have listed : c ∈ [' ', '\t', '\n', '\r', '\x0b', '\x0c'] := by
    simpa [isSpace, or_assoc] using space
  have fails := List.all_eq_true.mp never c listed
  rw [holds] at fails
  cases fails

theorem Standalone.identifier (name : Text) (valid : isIdentifier name = true) :
    Standalone (.identifier name) where
  front := by
    cases name with
    | nil => cases valid
    | cons c name =>
      have start := (Bool.and_eq_true_iff.mp valid).1
      have visible := isSpace_false isIdentifierStart c start (by decide)
      simp [Token.identifier, visible]
  reads rest spaced := by
    apply tokenAt_identifier name rest valid
    intro c head
    rw [spaced c head]
    rfl

theorem Standalone.number (number : Text) (valid : isNumber number = true) :
    Standalone (.literal number) where
  front := by
    cases number with
    | nil => cases valid
    | cons c number =>
      have digit := (Bool.and_eq_true_iff.mp valid).1
      have visible := isSpace_false Char.isDigit c digit (by decide)
      simp [Token.literal, visible]
  reads rest spaced := by
    apply tokenAt_number number rest valid
    intro c head
    rw [spaced c head]
    rfl

theorem not_extends_space : ∀ str ∈ punctuatorsAndOperators, ¬ Extends str ' ' := by
  decide +kernel

theorem Standalone.punctuator (str : Text) (listed : str ∈ punctuatorsAndOperators) :
    Standalone ⟨.punctuation, str⟩ where
  front := by
    have starts := isPunctuatorStart_of_mem _ listed
    cases str with
    | nil => cases starts
    | cons c str =>
      simp only [List.head?_cons, Option.any_some, isPunctuatorStart, Bool.and_eq_true] at starts ⊢
      exact starts.1.1.1.1.1
  reads rest spaced := by
    apply tokenAt_punctuator str rest listed
    · intro c head
      rw [spaced c head]
      exact not_extends_space str listed
    · intro _ head
      cases spaced _ head

theorem Splits.of_spaceOrEnd (token : Token) {rest : Text} (spaced : SpaceOrEnd rest) : Splits token rest := by
  intro _
  apply tokenAt_punctuator ">".toList rest (by decide)
  · intro c head
    rw [spaced c head]
    exact not_extends_space _ (by decide)
  · intro same
    cases same

def spaces (count : Nat) : Text := List.replicate count ' '

namespace Lexes

variable {rest : Text} {tokens others : List Token}

theorem cons (token : Token) (front : token.str.head?.any (!isSpace ·) = true)
    (reads : tokenAt (token.str ++ rest) = .ok token) (splits : Splits token rest) (next : Lexes rest tokens) :
    Lexes (token.str ++ rest) (token :: tokens) := by
  cases text : token.str with
  | nil =>
    rw [text] at front
    cases front
  | cons c str =>
    rw [text] at front
    simp only [List.head?_cons, Option.any_some, Bool.not_eq_true'] at front
    apply Lexes.token (by simp [text]) _ reads splits next
    rw [text, List.cons_append, List.dropWhile_cons, front]
    rfl

theorem space (lexes : Lexes rest tokens) : Lexes (' ' :: rest) tokens := by
  cases lexes with
  | done spaces => exact .done spaces
  | token nonempty front reads splits next => exact .token nonempty front reads splits next

theorem spaces (count : Nat) (lexes : Lexes rest tokens) :
    Lexes (PruneSymbol.spaces count ++ rest) tokens := by
  induction count with
  | zero => exact lexes
  | succ count ih => exact ih.space

end Lexes

def spaced (tokens : List Token) : Text := tokens.flatMap fun token => ' ' :: token.str

theorem spaceOrEnd_spaced (tokens : List Token) (rest : Text) (end_ : SpaceOrEnd rest) :
    SpaceOrEnd (spaced tokens ++ rest) := by
  cases tokens with
  | nil => exact end_
  | cons token tokens =>
    intro c head
    cases head
    rfl

theorem lexes_spaced (tokens others : List Token) (rest : Text)
    (standalone : ∀ token ∈ tokens, Standalone token) (end_ : SpaceOrEnd rest)
    (lexes : Lexes rest others) : Lexes (spaced tokens ++ rest) (tokens ++ others) := by
  induction tokens with
  | nil => exact lexes
  | cons token tokens ih =>
    have alone := standalone token (by simp)
    have next := ih fun other member => standalone other (by simp [member])
    have space := spaceOrEnd_spaced tokens rest end_
    have text : spaced (token :: tokens) ++ rest = ' ' :: (token.str ++ (spaced tokens ++ rest)) := by
      simp [spaced]
    rw [text]
    exact (Lexes.cons token alone.front (alone.reads _ space) (.of_spaceOrEnd token space) next).space

end Cpptrace.PruneSymbol
