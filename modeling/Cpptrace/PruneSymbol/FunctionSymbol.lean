import Cpptrace.PruneSymbol.Fragments
import Cpptrace.PruneSymbol.Lexing

/-! Symbols of functions as demanglers write them: types that are qualified
names, the qualified name of the function, its parameters, its qualifiers.

The tokens of a list are separated by single spaces. `gap` is the number of
spaces between the pieces of a qualified name: none in `ns::f< int >( int )`,
one in `ns :: f < int > ( int )`.
-/

set_option autoImplicit false

namespace Cpptrace.PruneSymbol

/-- An identifier that the parser has no rule of its own for. -/
structure Identifier where
  text : Text
  valid : isIdentifier text = true
  unreserved : text ≠ "operator".toList ∧ isIgnoredIdentifier text = false

inductive ParameterToken : Token → Prop where
  | identifier (text : Text) (valid : isIdentifier text = true) : ParameterToken (.identifier text)
  | number (text : Text) (valid : isNumber text = true) : ParameterToken (.literal text)
  | punctuation (str : String) (listed : str ∈ [",", "::", "*", "&", "<", ">"]) :
      ParameterToken (.punctuation str)

inductive TemplateToken : Token → Prop where
  | identifier (text : Text) (valid : isIdentifier text = true) (keyword : text ≠ "operator".toList) :
      TemplateToken (.identifier text)
  | number (text : Text) (valid : isNumber text = true) : TemplateToken (.literal text)
  | punctuation (str : String) (listed : str ∈ [",", "::", "*", "&"]) :
      TemplateToken (.punctuation str)

/-- The tokens between `<` and `>`. -/
structure TemplateList where
  inner : List Token
  wellFormed : Angled TemplateToken ParameterToken inner

/-- The tokens between `(` and `)`; the first does not announce a function pointer. -/
structure ParameterList where
  inner : List Token
  wellFormed : Parenthesized ParameterToken inner
  opens : ∀ next ∈ inner.head?, OpensNoPointer next

structure Part where
  identifier : Identifier
  template : Option TemplateList

structure QualifiedName where
  first : Part
  rest : List Part

inductive TypeModifier where
  | const
  | star
  | ampersand

structure TypeName where
  name : QualifiedName
  modifiers : List TypeModifier

inductive FunctionQualifier where
  | const
  | volatile
  | noexcept
  | ampersand
  | ampersandAmpersand

structure FunctionSymbol where
  types : List TypeName
  name : QualifiedName
  parameters : ParameterList
  qualifiers : List FunctionQualifier

section Tokens

def TemplateList.tokens (list : TemplateList) : List Token :=
  .punctuation "<" :: list.inner ++ [.punctuation ">"]

def ParameterList.tokens (list : ParameterList) : List Token :=
  .punctuation "(" :: list.inner ++ [.punctuation ")"]

def Part.templateTokens (part : Part) : List Token :=
  part.template.elim [] TemplateList.tokens

def Part.tokens (part : Part) : List Token :=
  .identifier part.identifier.text :: part.templateTokens

def QualifiedName.tokens (name : QualifiedName) : List Token :=
  name.first.tokens ++ name.rest.flatMap fun part => .punctuation "::" :: part.tokens

def TypeModifier.token : TypeModifier → Token
  | .const => .identifier "const".toList
  | .star => .punctuation "*"
  | .ampersand => .punctuation "&"

def TypeName.tokens (type : TypeName) : List Token :=
  type.name.tokens ++ type.modifiers.map TypeModifier.token

def FunctionQualifier.token : FunctionQualifier → Token
  | .const => .identifier "const".toList
  | .volatile => .identifier "volatile".toList
  | .noexcept => .identifier "noexcept".toList
  | .ampersand => .punctuation "&"
  | .ampersandAmpersand => .punctuation "&&"

def FunctionSymbol.tail (symbol : FunctionSymbol) : List Token :=
  symbol.parameters.tokens ++ symbol.qualifiers.map FunctionQualifier.token

def FunctionSymbol.tokens (symbol : FunctionSymbol) : List Token :=
  symbol.types.flatMap TypeName.tokens ++ (symbol.name.tokens ++ symbol.tail)

end Tokens

section Text

variable (gap : Nat)

/-- `< T >` and `( P )`. -/
def bracketedText (opening closing : Char) (inner : List Token) : Text :=
  opening :: (spaced inner ++ [' ', closing])

def Part.text (part : Part) : Text :=
  part.identifier.text ++
    part.template.elim [] fun list => spaces gap ++ bracketedText '<' '>' list.inner

def QualifiedName.text (name : QualifiedName) : Text :=
  name.first.text gap ++
    name.rest.flatMap fun part => spaces gap ++ "::".toList ++ spaces gap ++ part.text gap

def TypeName.text (type : TypeName) : Text :=
  type.name.text gap ++ spaced (type.modifiers.map TypeModifier.token)

def FunctionSymbol.text (symbol : FunctionSymbol) : Text :=
  symbol.types.flatMap (fun type => type.text gap ++ " ".toList) ++ symbol.name.text gap ++
    spaces gap ++ bracketedText '(' ')' symbol.parameters.inner ++
    spaced (symbol.qualifiers.map FunctionQualifier.token)

end Text

def QualifiedName.pruned (name : QualifiedName) : Text :=
  name.first.identifier.text ++ name.rest.flatMap fun part => "::".toList ++ part.identifier.text

theorem ParameterToken.standalone (token : Token) (is : ParameterToken token) : Standalone token := by
  cases is with
  | identifier text valid => exact .identifier text valid
  | number text valid => exact .number text valid
  | punctuation str listed =>
    have punctuators : ∀ str ∈ [",", "::", "*", "&", "<", ">"],
        str.toList ∈ punctuatorsAndOperators := by decide
    exact .punctuator str.toList (punctuators str listed)

theorem TemplateToken.standalone (token : Token) (is : TemplateToken token) : Standalone token := by
  cases is with
  | identifier text valid keyword => exact .identifier text valid
  | number text valid => exact .number text valid
  | punctuation str listed =>
    have punctuators : ∀ str ∈ [",", "::", "*", "&"], str.toList ∈ punctuatorsAndOperators := by
      decide
    exact .punctuator str.toList (punctuators str listed)

theorem Parenthesized.forall_mem {plain property : Token → Prop} {tokens : List Token}
    (list : Parenthesized plain tokens) (plains : ∀ token, plain token → property token)
    (opening : property (.punctuation "(")) (closing : property (.punctuation ")")) :
    ∀ token ∈ tokens, property token := by
  induction list with
  | nil => simp
  | @plain token rest is next ih => simpa using ⟨plains token is, ih⟩
  | nested within next ihInner ihNext =>
    intro token member
    simp only [List.cons_append, List.mem_cons, List.mem_append] at member
    obtain rfl | inner | rfl | outer := member
    · exact opening
    · exact ihInner token inner
    · exact closing
    · exact ihNext token outer

theorem ParameterList.standalone (list : ParameterList) : ∀ token ∈ list.inner, Standalone token :=
  list.wellFormed.forall_mem ParameterToken.standalone (.punctuator _ (by decide))
    (.punctuator _ (by decide))

theorem Angled.forall_mem {plain inParentheses property : Token → Prop} {tokens : List Token}
    (list : Angled plain inParentheses tokens) (plains : ∀ token, plain token → property token)
    (insides : ∀ token, inParentheses token → property token)
    (brackets : ∀ str ∈ ["<", ">", "(", ")"], property (.punctuation str)) :
    ∀ token ∈ tokens, property token := by
  induction list with
  | nil => simp
  | @plain token rest is next ih => simpa using ⟨plains token is, ih⟩
  | nested within next ihInner ihNext =>
    intro token member
    simp only [List.cons_append, List.mem_cons, List.mem_append] at member
    obtain rfl | inner | rfl | outer := member
    · exact brackets "<" (by decide)
    · exact ihInner token inner
    · exact brackets ">" (by decide)
    · exact ihNext token outer
  | parenthesized within next ih =>
    intro token member
    simp only [List.cons_append, List.mem_cons, List.mem_append] at member
    obtain rfl | inner | rfl | outer := member
    · exact brackets "(" (by decide)
    · exact within.forall_mem insides (brackets "(" (by decide)) (brackets ")" (by decide)) token inner
    · exact brackets ")" (by decide)
    · exact ih token outer

theorem standalone_brackets : ∀ str ∈ ["<", ">", "(", ")"], Standalone (.punctuation str) := by
  have listed : ∀ str ∈ ["<", ">", "(", ")"], str.toList ∈ punctuatorsAndOperators := by decide
  exact fun str member => .punctuator str.toList (listed str member)

theorem Angled.standalone {tokens : List Token} (list : Angled TemplateToken ParameterToken tokens) :
    ∀ token ∈ tokens, Standalone token :=
  list.forall_mem TemplateToken.standalone ParameterToken.standalone standalone_brackets

def pieceEnds : List Char := [' ', ':', '(', '<']

def EndsPiece (rest : Text) : Prop := ∀ c ∈ rest.head?, c ∈ pieceEnds

theorem EndsPiece.of_cons (c : Char) (rest : Text) (listed : c ∈ pieceEnds) :
    EndsPiece (c :: rest) := by
  intro head same
  cases same
  exact listed

theorem SpaceOrEnd.endsPiece {rest : Text} (ends : SpaceOrEnd rest) : EndsPiece rest := by
  intro c head
  rw [ends c head]
  decide

theorem EndsPiece.spaces {rest : Text} (ends : EndsPiece rest) (gap : Nat) :
    EndsPiece (spaces gap ++ rest) := by
  cases gap with
  | zero => exact ends
  | succ gap => exact .of_cons ' ' _ (by decide)

section Lexes

variable {rest : Text} {others : List Token} (gap : Nat)

theorem lexes_identifier (identifier : Identifier) (ends : EndsPiece rest) (lexes : Lexes rest others) :
    Lexes (identifier.text ++ rest) (.identifier identifier.text :: others) := by
  apply Lexes.cons _ (Standalone.identifier identifier.text identifier.valid).front _ (.of_ne nofun) lexes
  apply tokenAt_identifier _ _ identifier.valid
  intro c head
  have stops : pieceEnds.all (!isIdentifierContinue ·) = true := by decide
  simpa using List.all_eq_true.mp stops c (ends c head)

theorem lexes_bracketed (opening closing : Char) (inner : List Token)
    (standalone : ∀ token ∈ inner, Standalone token)
    (opens : [opening] ∈ punctuatorsAndOperators) (closes : [closing] ∈ punctuatorsAndOperators)
    (whole : pieceEnds.all (fun c => ¬ Extends [closing] c) = true) (parenthesis : closing ≠ '(')
    (ends : EndsPiece rest) (lexes : Lexes rest others) :
    Lexes (bracketedText opening closing inner ++ rest)
      (⟨.punctuation, [opening]⟩ :: inner ++ ⟨.punctuation, [closing]⟩ :: others) := by
  have closed : Lexes ([closing] ++ rest) (⟨.punctuation, [closing]⟩ :: others) := by
    apply Lexes.cons _ (Standalone.punctuator _ closes).front _ (.of_ne (by simp [Token.punctuation])) lexes
    apply tokenAt_punctuator _ _ closes
    · intro c head
      simpa using List.all_eq_true.mp whole c (ends c head)
    · intro same
      exact absurd (by simpa using same) parenthesis
  have space : SpaceOrEnd (' ' :: ([closing] ++ rest)) := by
    intro c head
    cases head
    rfl
  have listed := lexes_spaced inner _ _ standalone space closed.space
  have opened := Standalone.punctuator _ opens
  have text : bracketedText opening closing inner ++ rest =
      [opening] ++ (spaced inner ++ (' ' :: ([closing] ++ rest))) := by
    simp [bracketedText]
  rw [text]
  have follows := spaceOrEnd_spaced inner _ space
  exact Lexes.cons _ opened.front (opened.reads _ follows) (.of_spaceOrEnd _ follows) listed

theorem lexes_part (part : Part) (ends : EndsPiece rest) (lexes : Lexes rest others) :
    Lexes (part.text gap ++ rest) (part.tokens ++ others) := by
  obtain ⟨identifier, template⟩ := part
  unfold Part.text Part.tokens Part.templateTokens
  cases template with
  | none => simpa using lexes_identifier identifier ends lexes
  | some list =>
    have bracketed := lexes_bracketed '<' '>' list.inner list.wellFormed.standalone (by decide)
      (by decide) (by decide) (by decide) ends lexes
    have separate : EndsPiece (spaces gap ++ (bracketedText '<' '>' list.inner ++ rest)) :=
      (EndsPiece.of_cons '<' _ (by decide)).spaces gap
    have named := lexes_identifier identifier separate (bracketed.spaces gap)
    simpa [TemplateList.tokens, Token.punctuation] using named

theorem tokenAt_scope (rest : Text) : tokenAt ("::".toList ++ rest) = .ok (.punctuation "::") := by
  apply tokenAt_punctuator _ _ (by decide)
  · rintro c - ⟨punctuation, listed, fits⟩
    have longest : ∀ punctuation ∈ punctuatorsAndOperators, "::".toList <+: punctuation →
        punctuation.length ≤ 2 := by decide
    have short := longest punctuation listed ((List.prefix_append _ _).trans fits)
    have long := fits.length_le
    simp at long
    omega
  · intro same
    cases same

theorem endsPiece_parts (parts : List Part) (ends : EndsPiece rest) :
    EndsPiece ((parts.flatMap fun part =>
      spaces gap ++ "::".toList ++ spaces gap ++ part.text gap) ++ rest) := by
  cases parts with
  | nil => exact ends
  | cons part parts =>
    simp only [List.flatMap_cons, List.append_assoc]
    exact (EndsPiece.of_cons ':' _ (by decide)).spaces gap

theorem lexes_parts (parts : List Part) (ends : EndsPiece rest) (lexes : Lexes rest others) :
    Lexes ((parts.flatMap fun part => spaces gap ++ "::".toList ++ spaces gap ++ part.text gap) ++ rest)
      ((parts.flatMap fun part => .punctuation "::" :: part.tokens) ++ others) := by
  induction parts with
  | nil => exact lexes
  | cons part parts ih =>
    have named := lexes_part gap part (endsPiece_parts gap parts ends) ih
    have reads := Lexes.cons (.punctuation "::") (by decide) (tokenAt_scope _) (.of_ne (by decide))
      (named.spaces gap)
    simpa [Token.punctuation] using reads.spaces gap

theorem lexes_name (name : QualifiedName) (ends : EndsPiece rest) (lexes : Lexes rest others) :
    Lexes (name.text gap ++ rest) (name.tokens ++ others) := by
  unfold QualifiedName.text QualifiedName.tokens
  have read := lexes_part gap name.first (endsPiece_parts gap name.rest ends)
    (lexes_parts gap name.rest ends lexes)
  simpa only [List.append_assoc] using read

theorem lexes_type (type : TypeName) (lexes : Lexes rest others) :
    Lexes (type.text gap ++ " ".toList ++ rest) (type.tokens ++ others) := by
  have standalone : ∀ token ∈ type.modifiers.map TypeModifier.token, Standalone token := by
    intro token member
    obtain ⟨modifier, -, rfl⟩ := List.mem_map.mp member
    cases modifier with
    | const => exact .identifier _ (by decide)
    | star | ampersand => exact .punctuator _ (by decide)
  have space : SpaceOrEnd (' ' :: rest) := by
    intro c head
    cases head
    rfl
  have modifiers := lexes_spaced _ _ _ standalone space lexes.space
  have named := lexes_name gap type.name (spaceOrEnd_spaced _ _ space).endsPiece modifiers
  simpa [TypeName.text, TypeName.tokens] using named

theorem lexes_types (types : List TypeName) (lexes : Lexes rest others) :
    Lexes ((types.flatMap fun type => type.text gap ++ " ".toList) ++ rest)
      (types.flatMap TypeName.tokens ++ others) := by
  induction types with
  | nil => exact lexes
  | cons type types ih =>
    simpa only [List.flatMap_cons, List.append_assoc] using lexes_type gap type ih

end Lexes

theorem standalone_qualifiers (qualifiers : List FunctionQualifier) :
    ∀ token ∈ qualifiers.map FunctionQualifier.token, Standalone token := by
  intro token member
  obtain ⟨qualifier, -, rfl⟩ := List.mem_map.mp member
  cases qualifier with
  | const | volatile | noexcept => exact .identifier _ (by decide)
  | ampersand | ampersandAmpersand => exact .punctuator _ (by decide)

/-- The text of a symbol is read as the tokens that it was put together from. -/
theorem FunctionSymbol.lexes (symbol : FunctionSymbol) (gap : Nat) :
    Lexes (symbol.text gap) symbol.tokens := by
  have standalone := standalone_qualifiers symbol.qualifiers
  have ends : SpaceOrEnd [] := by simp [SpaceOrEnd]
  have qualifiers := lexes_spaced _ [] [] standalone ends (.done rfl)
  have parameters := lexes_bracketed '(' ')' symbol.parameters.inner symbol.parameters.standalone
    (by decide) (by decide) (by decide) (by decide) (spaceOrEnd_spaced _ _ ends).endsPiece qualifiers
  have separate := EndsPiece.of_cons '(' (spaced symbol.parameters.inner ++ [' ', ')'] ++
    (spaced (symbol.qualifiers.map FunctionQualifier.token) ++ [])) (by decide)
  have named := lexes_name gap symbol.name (separate.spaces gap) (parameters.spaces gap)
  have whole := lexes_types gap symbol.types named
  simpa [FunctionSymbol.text, FunctionSymbol.tokens, FunctionSymbol.tail, ParameterList.tokens,
    bracketedText, Token.punctuation] using whole

example :
    let int : Identifier := ⟨"int".toList, by decide, by decide⟩
    let ns : Part := ⟨⟨"ns".toList, by decide, by decide⟩, none⟩
    let f : Part := ⟨⟨"f".toList, by decide, by decide⟩,
      some ⟨[.identifier int.text], .plain (.identifier _ int.valid int.unreserved.1) .nil⟩⟩
    let parameters : ParameterList := ⟨[.literal "1".toList], .plain (.number _ (by decide)) .nil, by
      simp [OpensNoPointer, isPointerRef, Token.literal, Token.identifier]⟩
    FunctionSymbol.text 0 ⟨[⟨⟨⟨int, none⟩, []⟩, [.star]⟩], ⟨ns, [f]⟩, parameters, [.const]⟩ =
      "int * ns::f< int >( 1 ) const".toList := by
  decide

end Cpptrace.PruneSymbol
