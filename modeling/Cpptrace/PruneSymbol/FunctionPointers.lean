import Cpptrace.PruneSymbol.Erasure

/-! Functions that return pointers to functions.

Such a symbol wraps the function in the declarator of its return type, once for
each level: `int ( * ( & f ( A ) ) ( B ) ) ( C )`. The parser calls itself at
each opening parenthesis and resets the output there, and drops one parameter
list when it comes back.
-/

set_option autoImplicit false

namespace Cpptrace.PruneSymbol

open Library SymbolTokenizer

structure InsideParentheses (token : Token) : Prop where
  standalone : Standalone token
  notOpening : token ≠ .punctuation "("
  notClosing : token ≠ .punctuation ")"

structure TemplateTokens where
  inner : List Token
  wellFormed : ClosesTemplate 1 inner
  standalone : ∀ token ∈ inner, Standalone token

structure ParameterTokens where
  inner : List Token
  wellFormed : Parenthesized InsideParentheses inner

structure Qualifiers where
  tokens : List Token
  wellFormed : Trailing tokens
  standalone : ∀ token ∈ tokens, Standalone token

structure Segment where
  identifier : Identifier
  template : Option TemplateTokens

/-- A qualified name with its parameters and qualifiers. The first parameter token does not announce
a function pointer. -/
structure NamedFunction where
  first : Segment
  rest : List Segment
  parameters : ParameterTokens
  opens : ∀ next ∈ parameters.inner.head?, OpensNoPointer next
  qualifiers : Qualifiers

inductive PointerModifier : Token → Prop where
  | sign {token : Token} (is : isPointerRef token = true) : PointerModifier token
  | convention {name : Text} (is : isMicrosoftCallingConvention name = true) : PointerModifier (.identifier name)
  | ignored {name : Text} (is : isIgnoredIdentifier name = true) : PointerModifier (.identifier name)

structure PointerModifiers where
  conventions : List Text
  areConventions : ∀ name ∈ conventions, isMicrosoftCallingConvention name = true
  sign : Token
  isSign : isPointerRef sign = true
  mixed : List Token
  areModifiers : ∀ token ∈ mixed, PointerModifier token

/-- A function, wrapped in the declarators of the function pointers it returns. -/
inductive Declarator where
  | named (function : NamedFunction)
  | pointer (modifiers : PointerModifiers) (inner : Declarator) (parameters : ParameterTokens)

section Tokens

def TemplateTokens.tokens (list : TemplateTokens) : List Token :=
  .punctuation "<" :: list.inner

def ParameterTokens.tokens (list : ParameterTokens) : List Token :=
  .punctuation "(" :: list.inner ++ [.punctuation ")"]

def Segment.templateTokens (segment : Segment) : List Token :=
  segment.template.elim [] TemplateTokens.tokens

def Segment.name (segment : Segment) : Text := segment.identifier.text

def NamedFunction.tail (function : NamedFunction) : List Token :=
  function.parameters.tokens ++ function.qualifiers.tokens

def NamedFunction.tokens (function : NamedFunction) : List Token :=
  segmentTokens Segment.name Segment.templateTokens function.first function.rest ++ function.tail

def PointerModifiers.tokens (modifiers : PointerModifiers) : List Token :=
  modifiers.conventions.map Token.identifier ++ modifiers.sign :: modifiers.mixed

def Declarator.tokens : Declarator → List Token
  | .named function => function.tokens
  | .pointer modifiers inner parameters =>
      .punctuation "(" :: (modifiers.tokens ++ inner.tokens ++ [.punctuation ")"]) ++ parameters.tokens

end Tokens

def Declarator.function : Declarator → NamedFunction
  | .named function => function
  | .pointer _ inner _ => inner.function

def Declarator.isPointer : Declarator → Bool
  | .named _ => false
  | .pointer .. => true

def joined : List Token → Text
  | [] => []
  | token :: rest => token.str ++ spaced rest

def NamedFunction.pruned (function : NamedFunction) : Text :=
  function.first.name ++ function.rest.flatMap fun segment => "::".toList ++ segment.name

section Standalone

theorem ParameterTokens.standalone (list : ParameterTokens) : ∀ token ∈ list.tokens, Standalone token := by
  have opening := standalone_brackets "(" (by decide)
  have closing := standalone_brackets ")" (by decide)
  have inner := list.wellFormed.forall_mem (fun _ is => is.standalone) opening closing
  simpa [ParameterTokens.tokens, or_imp, forall_and] using ⟨opening, inner, closing⟩

theorem Segment.standalone (segment : Segment) :
    ∀ token ∈ .identifier segment.name :: segment.templateTokens, Standalone token := by
  have named := Standalone.identifier segment.name segment.identifier.valid
  obtain ⟨identifier, template⟩ := segment
  cases template with
  | none => simpa [Segment.templateTokens] using named
  | some list =>
    have opening := standalone_brackets "<" (by decide)
    simpa [Segment.templateTokens, TemplateTokens.tokens] using ⟨named, opening, list.standalone⟩

theorem NamedFunction.standalone (function : NamedFunction) : ∀ token ∈ function.tokens, Standalone token := by
  have scope : Standalone (.punctuation "::") := .punctuator _ (by decide)
  simp only [NamedFunction.tokens, segmentTokens, NamedFunction.tail, List.forall_mem_append]
  refine ⟨⟨function.first.standalone, fun token member => ?_⟩, function.parameters.standalone,
    function.qualifiers.standalone⟩
  obtain ⟨segment, -, within⟩ := List.mem_flatMap.mp member
  rcases List.mem_cons.mp within with rfl | inner
  · exact scope
  · exact segment.standalone token inner

theorem standalone_sign (token : Token) (sign : isPointerRef token = true) : Standalone token := by
  obtain ⟨type, str⟩ := token
  simp only [isPointerRef, Bool.and_eq_true, Bool.or_eq_true, decide_eq_true_eq] at sign
  obtain ⟨rfl, (rfl | rfl) | rfl⟩ := sign <;> exact .punctuator _ (by decide)

theorem standalone_convention (name : Text) (is : isMicrosoftCallingConvention name = true) :
    Standalone (.identifier name) := by
  simp only [isMicrosoftCallingConvention, Bool.or_eq_true, decide_eq_true_eq] at is
  obtain ((((rfl | rfl) | rfl) | rfl) | rfl) | rfl := is <;> exact .identifier _ (by decide)

theorem standalone_ignored (name : Text) (is : isIgnoredIdentifier name = true) : Standalone (.identifier name) := by
  simp only [isIgnoredIdentifier, Bool.or_eq_true, decide_eq_true_eq] at is
  obtain ((rfl | rfl) | rfl) | rfl := is <;> exact .identifier _ (by decide)

theorem PointerModifiers.standalone (modifiers : PointerModifiers) : ∀ token ∈ modifiers.tokens, Standalone token := by
  simp only [PointerModifiers.tokens, List.forall_mem_append, List.forall_mem_cons, List.forall_mem_map]
  refine ⟨fun name member => standalone_convention name (modifiers.areConventions name member),
    standalone_sign modifiers.sign modifiers.isSign, fun token member => ?_⟩
  cases modifiers.areModifiers token member with
  | sign is => exact standalone_sign token is
  | convention is => exact standalone_convention _ is
  | ignored is => exact standalone_ignored _ is

theorem Declarator.standalone (declarator : Declarator) : ∀ token ∈ declarator.tokens, Standalone token := by
  induction declarator with
  | named function => exact function.standalone
  | pointer modifiers inner parameters ih =>
    have opening := standalone_brackets "(" (by decide)
    have closing := standalone_brackets ")" (by decide)
    simp only [Declarator.tokens, List.forall_mem_append, List.forall_mem_cons, List.cons_append]
    exact ⟨opening, ⟨⟨modifiers.standalone, ih⟩, closing, by simp⟩, parameters.standalone⟩

theorem lexes_joined (tokens : List Token) (standalone : ∀ token ∈ tokens, Standalone token) :
    Lexes (joined tokens) tokens := by
  cases tokens with
  | nil => exact .done rfl
  | cons token rest =>
    have ends : SpaceOrEnd [] := by simp [SpaceOrEnd]
    have alone := standalone token List.mem_cons_self
    have others := lexes_spaced rest [] [] (fun other member => standalone other (.tail _ member)) ends (.done rfl)
    have space := spaceOrEnd_spaced rest [] ends
    simpa [joined] using Lexes.cons token alone.front (alone.reads _ space) (.of_spaceOrEnd token space) others

end Standalone

section Parses

variable {rest : List Token} {output : Output}

def EndsModifiers (next : Token) : Prop :=
  isPointerRef next = false ∧ ∀ name, next = .identifier name →
    isMicrosoftCallingConvention name = false ∧ isIgnoredIdentifier name = false

theorem PointerModifier.sign_or_word {token : Token} (modifier : PointerModifier token) :
    isPointerRef token = true ∨ ∃ name, token = .identifier name ∧
      (decide ((Token.identifier name).type = .identifier) &&
        (isMicrosoftCallingConvention (Token.identifier name).str ||
          isIgnoredIdentifier (Token.identifier name).str)) = true := by
  cases modifier with
  | sign is => exact .inl is
  | @convention name is => exact .inr ⟨name, rfl, by simp [Token.identifier, is]⟩
  | @ignored name is => exact .inr ⟨name, rfl, by simp [Token.identifier, is]⟩

theorem PointerModifiers.are (modifiers : PointerModifiers) : ∀ token ∈ modifiers.tokens, PointerModifier token := by
  simp only [PointerModifiers.tokens, List.forall_mem_append, List.forall_mem_cons, List.forall_mem_map]
  exact ⟨fun name member => .convention (modifiers.areConventions name member), .sign modifiers.isSign,
    modifiers.areModifiers⟩

theorem PointerModifiers.any_sign (modifiers : PointerModifiers) : modifiers.tokens.any isPointerRef = true := by
  simp [PointerModifiers.tokens, modifiers.isSign]

theorem lookaheadSign_found (conventions : List Text)
    (are : ∀ name ∈ conventions, isMicrosoftCallingConvention name = true) (sign : Token)
    (is : isPointerRef sign = true) (fuel : Nat) (enough : conventions.length < fuel) :
    Returns (Reads (conventions.map Token.identifier ++ sign :: rest)) (lookaheadSign fuel) true fun _ => True := by
  induction conventions generalizing fuel with
  | nil =>
    cases fuel with
    | zero => cases enough
    | succ fuel =>
      rw [lookaheadSign]
      apply (advance_cons sign rest false rfl).bind
      simp only [is, if_true]
      exact (Returns.pure _ true).weaken (fun _ reads => reads) fun _ _ => trivial
  | cons name conventions ih =>
    cases fuel with
    | zero => cases enough
    | succ fuel =>
      have convention := are name List.mem_cons_self
      rw [lookaheadSign, List.map_cons, List.cons_append]
      apply (advance_cons (.identifier name) _ false rfl).bind
      have other : isPointerRef (.identifier name) = false := rfl
      have kind : (Token.identifier name).type = .identifier := rfl
      have str : (Token.identifier name).str = name := rfl
      simp only [other, Bool.false_eq_true, if_false, kind, str, convention, decide_true, Bool.and_self, if_true]
      exact ih (fun other member => are other (.tail _ member)) fuel (by simpa using enough)

theorem lookaheadIsFunctionPointer_found (modifiers : PointerModifiers) (fuel : Nat)
    (enough : modifiers.tokens.length ≤ fuel) :
    Returns (At (.punctuation "(" :: (modifiers.tokens ++ rest)) output) (lookaheadIsFunctionPointer fuel) true
      (At (.punctuation "(" :: (modifiers.tokens ++ rest)) output) := by
  have short : modifiers.conventions.length < fuel := by
    simp only [PointerModifiers.tokens, List.length_append, List.length_map, List.length_cons] at enough
    omega
  have ahead : Returns (Reads (.punctuation "(" :: (modifiers.tokens ++ rest))) (functionPointerAhead fuel) true
      fun _ => True := by
    apply (acceptWhen_found _ _ _ (decide_eq_true rfl)).bind
    have found := @lookaheadSign_found (modifiers.mixed ++ rest) modifiers.conventions
      modifiers.areConventions modifiers.sign modifiers.isSign fuel short
    simpa [PointerModifiers.tokens] using found
  rintro parser ⟨reads, rfl⟩
  have returned := (ahead parser.tokenizer reads).1
  unfold lookaheadIsFunctionPointer
  rw [Command.bind_apply, Command.get_apply]
  simp only [returned]
  exact ⟨rfl, reads, rfl⟩

theorem skipFunctionPointerModifiers_modifiers (output : Output) (tokens : List Token)
    (are : ∀ token ∈ tokens, PointerModifier token)
    (ends : ∀ next ∈ rest.head?, EndsModifiers next) (fuel : Nat) (enough : tokens.length < fuel)
    (sawPointer : Bool) :
    Returns (At (tokens ++ rest) output) (skipFunctionPointerModifiers fuel sawPointer)
      (sawPointer || tokens.any isPointerRef) (At rest output) := by
  induction tokens generalizing fuel sawPointer with
  | nil =>
    cases fuel with
    | zero => cases enough
    | succ fuel =>
      rw [skipFunctionPointerModifiers]
      apply At.peek.bind
      cases rest with
      | nil => simpa using Returns.pure _ sawPointer
      | cons next rest =>
        obtain ⟨sign, name⟩ := ends next rfl
        have other : (decide (next.type = .identifier)
            && (isMicrosoftCallingConvention next.str || isIgnoredIdentifier next.str)) = false := by
          obtain ⟨type, str⟩ := next
          cases type with
          | identifier => simpa using name str rfl
          | punctuation | literal | anonymousNamespace => rfl
        simp only [List.nil_append, List.head?_cons, sign, other, List.any_nil, Bool.or_false]
        exact .pure _ sawPointer
  | cons token tokens ih =>
    cases fuel with
    | zero => cases enough
    | succ fuel =>
      have next := ih (fun other member => are other (.tail _ member)) fuel (by simpa using enough)
      rw [skipFunctionPointerModifiers]
      apply At.peek.bind
      -- only a sign makes the answer true; a calling convention is skipped
      rcases (are token List.mem_cons_self).sign_or_word with sign | ⟨name, rfl, word⟩
      · simp only [List.cons_append, List.head?_cons, sign, if_true, List.any_cons, Bool.true_or, Bool.or_true]
        exact (At.advance token).bind (by simpa using next true)
      · have other : isPointerRef (.identifier name) = false := rfl
        simp only [List.cons_append, List.head?_cons, other, Bool.false_eq_true, if_false, List.any_cons,
          Bool.false_or]
        rw [if_pos word]
        exact (At.advance _).bind (next sawPointer)

theorem insideParentheses_plain : PlainInParentheses InsideParentheses :=
  fun _ is => ⟨is.notOpening, is.notClosing⟩

theorem Segment.trailing (segment : Segment) {tail : List Token}
    (trailing : Trailing tail) :
    Trailing (segment.templateTokens ++ tail) := by
  obtain ⟨identifier, template⟩ := segment
  cases template with
  | none => exact trailing
  | some list => exact .bracketed (.template list.wellFormed) trailing

theorem Segment.head_templateTokens (segment : Segment) :
    ∀ next ∈ segment.templateTokens.head?, next = .punctuation "<" := by
  obtain ⟨identifier, template⟩ := segment
  cases template with
  | none => simp [Segment.templateTokens]
  | some list => simp [Segment.templateTokens, TemplateTokens.tokens]

theorem ParameterTokens.trailing (list : ParameterTokens) {tail : List Token}
    (trailing : Trailing tail) :
    Trailing (list.tokens ++ tail) :=
  .bracketed (.parenthesized insideParentheses_plain list.wellFormed) trailing

theorem NamedFunction.opensNoPointer (function : NamedFunction) (rest : List Token) :
    ∀ next others, function.tail ++ rest = .punctuation "(" :: next :: others → OpensNoPointer next := by
  simpa [NamedFunction.tail, ParameterTokens.tokens] using
    opensNoPointer_inside function.parameters.inner _ function.opens

theorem parseSymbol_named (function : NamedFunction) (stops : ∀ next ∈ rest.head?, Stops next)
    (scope : rest.head? ≠ some (.punctuation "::")) (fuel : Nat) (enough : 2 * function.tokens.length + 4 ≤ fuel)
    (madeProgress : Bool) :
    Returns (At (function.tokens ++ rest) output.reset) (parseSymbol fuel madeProgress) true
      (At rest ⟨function.pruned, true, false⟩) := by
  have keyword : ∀ segment : Segment, segment.name ≠ "operator".toList := fun segment =>
    segment.identifier.unreserved.1
  have trails : ∀ segment : Segment, Trailing segment.templateTokens :=
    fun segment => by simpa using segment.trailing .nil
  have tail : Trailing function.tail :=
    function.parameters.trailing function.qualifiers.wellFormed
  have parsed := parseSymbol_segments Segment.name Segment.templateTokens keyword trails Segment.head_templateTokens
      (function.tail ++ rest)
    (2 * function.tail.length) (fun output => At rest output)
    (fun segment output fuel madeProgress most => by
      rw [List.cons_append]
      exact parseSymbol_called output (keyword segment)
        (segment.trailing tail) segment.head_templateTokens rfl (function.opensNoPointer rest) stops scope
        (by omega) madeProgress)
    function.first function.rest output.reset fuel madeProgress (by
      simp only [NamedFunction.tokens, List.length_append] at enough
      omega)
  rw [segmentsOutput_reset] at parsed
  rw [NamedFunction.tokens, List.append_assoc]
  exact parsed

theorem acceptIdentifierToken_parenthesis : Returns (At (.punctuation "(" :: rest) output) acceptIdentifierToken
    false (At (.punctuation "(" :: rest) output) := by
  apply (At.accept_missed (.punctuation "~") (by simp [Token.punctuation])).bind
  apply (At.acceptType_missed .identifier (by simp [Token.punctuation])).bind
  exact .pure _ false

theorem acceptLambdaOrUnnamed_parenthesis (fuel : Nat) :
    Returns (At (.punctuation "(" :: rest) output) (acceptLambdaOrUnnamed (fuel + 1)) false
      (At (.punctuation "(" :: rest) output) := by
  rw [acceptLambdaOrUnnamed]
  apply (At.accept_missed (.punctuation "\x7b") (by simp [Token.punctuation])).bind
  apply At.peek.bind
  exact (At.accept_missed (.punctuation "<") (by simp [Token.punctuation])).bind (.pure _ false)

theorem parseSymbolTerm_parenthesis (fuel : Nat) :
    Returns (At (.punctuation "(" :: rest) output) (parseSymbolTerm (fuel + 2)) false
      (At (.punctuation "(" :: rest) output) := by
  rw [parseSymbolTerm]
  apply (acceptAnonymousNamespace_missed (by simp [Token.punctuation])).bind
  apply (acceptOperator_missed fuel false (by simp [Token.punctuation, Token.identifier])).bind
  apply acceptIdentifierToken_parenthesis.bind
  exact acceptLambdaOrUnnamed_parenthesis fuel

/-- A function pointer, when what it points to is parsed up to the closing parenthesis. -/
theorem parseFunctionPointer_around (modifiers : PointerModifiers) (inner : List Token) (name : Output)
    (ends : ∀ next ∈ inner.head?, EndsModifiers next) (nonempty : inner ≠ []) (fuel : Nat)
    (enough : modifiers.tokens.length + 1 ≤ fuel)
    (parsed : Returns (At (inner ++ .punctuation ")" :: rest) output.reset) (parseSymbol fuel false) true
      (At (.punctuation ")" :: rest) name)) :
    Returns (At (.punctuation "(" :: (modifiers.tokens ++ (inner ++ .punctuation ")" :: rest))) output)
      (parseFunctionPointer (fuel + 1)) true (At rest name) := by
  have last : ∀ next ∈ (inner ++ .punctuation ")" :: rest).head?, EndsModifiers next := by
    cases inner with
    | nil => cases nonempty rfl
    | cons token inner => exact ends
  have skipped : Returns (At (modifiers.tokens ++ (inner ++ .punctuation ")" :: rest)) output)
      (skipFunctionPointerModifiers fuel false) true (At (inner ++ .punctuation ")" :: rest) output) := by
    have run := skipFunctionPointerModifiers_modifiers output modifiers.tokens modifiers.are last fuel
      (by omega) false
    rwa [modifiers.any_sign] at run
  have closed : Returns (At (.punctuation ")" :: rest) name) (expect (.punctuation ")")) (.punctuation ")")
      (At rest name) := (At.accept _).bind (.pure _ _)
  rw [parseFunctionPointer]
  apply (lookaheadIsFunctionPointer_found modifiers fuel (by omega)).bind
  apply (At.accept (.punctuation "(")).bind
  apply skipped.bind
  apply (At.onOutput Output.reset).bind
  apply parsed.bind
  exact closed.discard.bind (.pure _ true)

theorem parseSymbolBase_pointer {tokens : List Token} {output' : Output} (matchedTerm : Bool)
    (modifiers : PointerModifiers) (inner : List Token) (name : Output)
    (ends : ∀ next ∈ inner.head?, EndsModifiers next) (nonempty : inner ≠ []) (fuel : Nat)
    (enough : modifiers.tokens.length + 1 ≤ fuel)
    (term : Returns (At tokens output) (parseSymbolTerm (fuel + 1)) matchedTerm
      (At (.punctuation "(" :: (modifiers.tokens ++ (inner ++ .punctuation ")" :: rest))) output'))
    (parsed : Returns (At (inner ++ .punctuation ")" :: rest) output'.reset) (parseSymbol fuel false) true
      (At (.punctuation ")" :: rest) name)) :
    Returns (At tokens output) (parseSymbolBase (fuel + 2)) true (At rest name) := by
  have pointer := parseFunctionPointer_around modifiers inner name ends nonempty fuel enough parsed
  rw [parseSymbolBase]
  apply term.bind
  apply (lookaheadIsFunctionPointer_found modifiers (fuel + 1) (by omega)).bind
  apply pointer.bind
  simpa using Returns.pure _ true

theorem parseSymbol_dropped {tokens : List Token} {name : Output} (nonempty : tokens ≠ [])
    (parameters : ParameterTokens) (stops : ∀ next ∈ rest.head?, Stops next)
    (scope : rest.head? ≠ some (.punctuation "::")) (fuel : Nat) (enough : 2 * parameters.tokens.length + 3 ≤ fuel)
    (madeProgress : Bool)
    (base : Returns (At tokens output) (parseSymbolBase fuel) true (At (parameters.tokens ++ rest) name)) :
    Returns (At tokens output) (parseSymbol (fuel + 1) madeProgress) true (At rest name) := by
  have trailing : Trailing parameters.tokens := by
    simpa using parameters.trailing .nil
  have signs := acceptPointerRef_signs name true [] (parameters.tokens ++ rest) (by simp)
    (by simp [ParameterTokens.tokens, isPointerRef, Token.punctuation]) fuel (by simp; omega) false
  have dropped := consumePunctuationAndTrailingModifiers_trailing name trailing stops fuel enough false
  rw [parseSymbol]
  apply At.peek.bind
  cases tokens with
  | nil => cases nonempty rfl
  | cons token tokens =>
    apply base.bind
    apply signs.discard.bind
    apply dropped.discard.bind
    exact (acceptScopeResolution_missed scope).bind (.pure _ true)

/-- The first token of a declarator that is not a calling convention ends the modifiers before it. -/
theorem Declarator.endsModifiers (declarator : Declarator)
    (plain : isMicrosoftCallingConvention declarator.function.first.name = false) :
    ∀ next ∈ declarator.tokens.head?, EndsModifiers next := by
  cases declarator with
  | named function =>
    rintro next ⟨⟩
    refine ⟨rfl, ?_⟩
    rintro name ⟨⟩
    exact ⟨plain, function.first.identifier.unreserved.2⟩
  | pointer modifiers inner parameters =>
    rintro next ⟨⟩
    exact ⟨by decide, by simp [Token.punctuation, Token.identifier]⟩

theorem Declarator.tokens_nonempty (declarator : Declarator) : declarator.tokens ≠ [] := by
  cases declarator <;> simp [Declarator.tokens, NamedFunction.tokens, segmentTokens]

theorem stops_closing : Stops (.punctuation ")") :=
  ⟨fun _ => by decide, by decide, by simp [Token.punctuation, Token.identifier]⟩

theorem ParameterTokens.two_le (list : ParameterTokens) : 2 ≤ list.tokens.length := by
  simp [ParameterTokens.tokens]

theorem Declarator.pointer_tokens (modifiers : PointerModifiers) (inner : Declarator) (parameters : ParameterTokens)
    (rest : List Token) : (pointer modifiers inner parameters).tokens ++ rest =
      .punctuation "(" :: (modifiers.tokens ++ (inner.tokens ++ .punctuation ")" :: (parameters.tokens ++ rest))) := by
  simp [Declarator.tokens]

/-- Inside its parentheses a function pointer is parsed to the name of the function. -/
theorem parseSymbol_declarator (output : Output) (declarator : Declarator)
    (plain : declarator.isPointer = true → isMicrosoftCallingConvention declarator.function.first.name = false)
    (stops : ∀ next ∈ rest.head?, Stops next) (scope : rest.head? ≠ some (.punctuation "::")) (fuel : Nat)
    (enough : 2 * declarator.tokens.length + 4 ≤ fuel) (madeProgress : Bool) :
    Returns (At (declarator.tokens ++ rest) output.reset) (parseSymbol fuel madeProgress) true
      (At rest ⟨declarator.function.pruned, true, false⟩) := by
  induction declarator generalizing output rest fuel madeProgress with
  | named function => exact parseSymbol_named function stops scope fuel enough madeProgress
  | pointer modifiers inner parameters ih =>
    have text := Declarator.pointer_tokens modifiers inner parameters rest
    have sizes := congrArg List.length (Declarator.pointer_tokens modifiers inner parameters [])
    simp only [List.append_nil, List.length_cons, List.length_append] at sizes
    have brackets := parameters.two_le
    have ordinary := plain rfl
    match fuel, enough with
    | fuel + 4, enough =>
      rw [text]
      apply parseSymbol_dropped (by simp) parameters stops scope (fuel + 3) (by omega) madeProgress
      -- the symbol in the parentheses ends at the closing one
      have stopped : ∀ next ∈ (Token.punctuation ")" :: (parameters.tokens ++ rest)).head?, Stops next := by
        rintro next ⟨⟩
        exact stops_closing
      have parsed := ih output.reset (fun _ => ordinary) stopped (by simp [Token.punctuation]) (fuel + 1)
        (by omega) false
      exact parseSymbolBase_pointer false modifiers inner.tokens _ (inner.endsModifiers ordinary) inner.tokens_nonempty
        (fuel + 1) (by omega) (parseSymbolTerm_parenthesis fuel) parsed

theorem parseSymbol_returning (returned : Identifier) (modifiers : PointerModifiers) (inner : Declarator)
    (parameters : ParameterTokens) (plain : isMicrosoftCallingConvention inner.function.first.name = false)
    (fuel : Nat) (enough : 2 * (Declarator.pointer modifiers inner parameters).tokens.length + 5 ≤ fuel) :
    Returns (At (.identifier returned.text :: (Declarator.pointer modifiers inner parameters).tokens) output)
      (parseSymbol fuel false) true (At [] ⟨inner.function.pruned, true, false⟩) := by
  have text := Declarator.pointer_tokens modifiers inner parameters []
  have sizes := congrArg List.length text
  simp only [List.append_nil, List.length_cons, List.length_append] at sizes
  rw [List.append_nil] at text
  have brackets := parameters.two_le
  match fuel, enough with
  | fuel + 4, enough =>
    rw [text]
    apply parseSymbol_dropped (by simp) parameters (by simp) (by simp) (fuel + 3) (by omega) false
    have stopped : ∀ next ∈ (Token.punctuation ")" :: (parameters.tokens ++ [])).head?, Stops next := by
      rintro next ⟨⟩
      exact stops_closing
    have parsed := parseSymbol_declarator (output.append (.identifier returned.text)) inner
      (fun _ => plain) stopped (by simp [Token.punctuation]) (fuel + 1) (by omega) false
    exact parseSymbolBase_pointer true modifiers inner.tokens _ (inner.endsModifiers plain) inner.tokens_nonempty
      (fuel + 1) (by omega) (parseSymbolTerm_identifier returned.text returned.unreserved.1 fuel) parsed

theorem parse_named (function : NamedFunction) (fuel : Nat) (enough : 2 * function.tokens.length + 6 ≤ fuel) :
    Returns (At function.tokens output) (parse fuel) () (At [] ⟨function.pruned, true, false⟩) := by
  match fuel, enough with
  | fuel + 2, enough =>
    have parsed : Returns (At (function.tokens ++ []) output.reset) (parseSymbol (fuel + 1) false) true
        (At [] ⟨function.pruned, true, false⟩) :=
      parseSymbol_named function (by simp) (by simp) (fuel + 1) (by omega) false
    rw [List.append_nil] at parsed
    exact parse_symbol (fuel + 1) (Declarator.named function).tokens_nonempty parsed (parse_done fuel)

theorem parseSymbol_returnType (returned : Identifier) (function : NamedFunction) (fuel : Nat) (enough : 4 ≤ fuel) :
    Returns (At (.identifier returned.text :: function.tokens) output) (parseSymbol fuel false) true
      (At function.tokens (output.append (.identifier returned.text))) := by
  have head : function.tokens.head? = some (.identifier function.first.name) := rfl
  have stops : ∀ next ∈ function.tokens.head?, Stops next := by
    rintro next ⟨⟩
    refine ⟨by simp [Token.identifier], rfl, ?_⟩
    rintro name ⟨⟩
    exact function.first.identifier.unreserved.2
  have notOpening : ∀ next others, function.tokens = .punctuation "(" :: next :: others → OpensNoPointer next := by
    intro next others begins
    rw [begins] at head
    cases head
  have noSign : ∀ next ∈ function.tokens.head?, isPointerRef next = false := by
    rintro next ⟨⟩
    rfl
  have scope : function.tokens.head? ≠ some (.punctuation "::") := by
    rw [head]
    simp [Token.identifier, Token.punctuation]
  show Returns (At (.identifier returned.text :: ([] ++ ([] ++ function.tokens))) output) _ true _
  exact parseSymbol_last output [] returned.unreserved.1 (by simp) .nil
    notOpening noSign stops scope enough false

theorem parse_declarator (returned : Identifier) (declarator : Declarator)
    (plain : declarator.isPointer = true → isMicrosoftCallingConvention declarator.function.first.name = false)
    (fuel : Nat) (enough : 2 * declarator.tokens.length + 7 ≤ fuel) :
    Returns (At (.identifier returned.text :: declarator.tokens) output) (parse fuel) ()
      (At [] ⟨declarator.function.pruned, true, false⟩) := by
  match fuel, enough with
  | fuel + 2, enough =>
    cases declarator with
    | named function =>
      have first : Returns (At (.identifier returned.text :: function.tokens) output.reset)
          (parseSymbol (fuel + 1) false) true (At function.tokens (output.reset.append (.identifier returned.text))) :=
        parseSymbol_returnType returned function (fuel + 1) (by omega)
      exact parse_symbol (fuel + 1) (by simp) first
        (parse_named function (fuel + 1) (by simp only [Declarator.tokens] at enough; omega))
    | pointer modifiers inner parameters =>
      have whole : Returns (At (.identifier returned.text :: (Declarator.pointer modifiers inner parameters).tokens)
          output.reset) (parseSymbol (fuel + 1) false) true (At [] ⟨inner.function.pruned, true, false⟩) :=
        parseSymbol_returning returned modifiers inner parameters (plain rfl) (fuel + 1) (by omega)
      exact parse_symbol (fuel + 1) (by simp) whole (parse_done fuel)

end Parses

theorem NamedFunction.pruned_nonempty (function : NamedFunction) : function.pruned.isEmpty = false :=
  function.first.identifier.text_append_nonempty _

theorem pruneSymbol_joined (tokens : List Token) (standalone : ∀ token ∈ tokens, Standalone token)
    (nonempty : tokens ≠ []) (name : Text) (named : name.isEmpty = false)
    (parsed : ∀ fuel, 2 * tokens.length + 7 ≤ fuel →
      Returns (At tokens ⟨[], false, false⟩) (parse fuel) () (At [] ⟨name, true, false⟩)) :
    pruneSymbol (joined tokens) = name := by
  have lexes := lexes_joined tokens standalone
  have size := lexes.length_le
  have positive := List.length_pos_of_ne_nil nonempty
  have pruned := lexes.pruneSymbol named (parsed (8 * (joined tokens).length + 7) (by omega))
  unfold pruneSymbol
  rw [pruned]

theorem joined_returned (returned : Identifier) (declarator : Declarator) :
    returned.text ++ " ".toList ++ joined declarator.tokens =
      joined (.identifier returned.text :: declarator.tokens) := by
  cases tokens : declarator.tokens with
  | nil => cases declarator.tokens_nonempty tokens
  | cons token rest => simp [joined, spaced, Token.identifier]

/-- However many function pointers a function returns, its symbol is pruned as the function alone is: to its
name. A wrapped name does not start with a calling convention, which would count to the pointer before it. -/
theorem pruneSymbol_functionPointers (returned : Identifier) (declarator : Declarator)
    (plain : declarator.isPointer = true → isMicrosoftCallingConvention declarator.function.first.name = false) :
    pruneSymbol (returned.text ++ " ".toList ++ joined declarator.tokens) =
        pruneSymbol (joined declarator.function.tokens) ∧
      pruneSymbol (joined declarator.function.tokens) = declarator.function.pruned := by
  have function := pruneSymbol_joined declarator.function.tokens declarator.function.standalone
    (Declarator.named declarator.function).tokens_nonempty _ declarator.function.pruned_nonempty
    fun fuel enough => parse_named declarator.function fuel (by omega)
  have whole : ∀ token ∈ .identifier returned.text :: declarator.tokens, Standalone token :=
    List.forall_mem_cons.mpr ⟨.identifier returned.text returned.valid, declarator.standalone⟩
  refine ⟨?_, function⟩
  rw [function, joined_returned]
  refine pruneSymbol_joined _ whole (by simp) _ declarator.function.pruned_nonempty fun fuel enough => ?_
  exact parse_declarator returned declarator plain fuel (by simp at enough; omega)

def intType : Identifier := ⟨"int".toList, by decide, by decide⟩

def functionCalled (identifier : Identifier) (template : Option TemplateTokens) : NamedFunction :=
  ⟨⟨identifier, template⟩, [], ⟨[], .nil⟩, by simp, ⟨[], .nil, by simp⟩⟩

/-- `< g < 2 >>` -/
def nestedTemplate : TemplateTokens where
  inner := [.identifier "g".toList, .punctuation "<", .literal "2".toList, .punctuation ">>"]
  wellFormed := .other (by decide) (by decide) (by decide) (.opening (.other (by decide) (by decide) (by decide)
    (.shift .done)))
  standalone := by
    have identifier := Standalone.identifier "g".toList (by decide)
    have opening := standalone_brackets "<" (by decide)
    have number := Standalone.number "2".toList (by decide)
    have shift : Standalone (.punctuation ">>") := .punctuator _ (by decide)
    simpa [or_imp, forall_and] using ⟨identifier, opening, number, shift⟩

def pointing (conventions : List Text)
    (areConventions : ∀ name ∈ conventions, isMicrosoftCallingConvention name = true) (inner : Declarator) :
    Declarator :=
  .pointer ⟨conventions, areConventions, .punctuation "*", by decide, [], by simp⟩ inner ⟨[], .nil⟩

/-- `( __cdecl * ( * f < g < 2 >> ( ) ) ( ) ) ( )` -/
def pointerToPointer : Declarator :=
  pointing ["__cdecl".toList] (by decide)
    (pointing [] (by simp) (.named (functionCalled ⟨"f".toList, by decide, by decide⟩ nestedTemplate)))

theorem pruneSymbol_functionPointers_at_two :
    pruneSymbol (intType.text ++ " ".toList ++ joined pointerToPointer.tokens) =
        pruneSymbol (joined pointerToPointer.function.tokens) ∧
      pruneSymbol (joined pointerToPointer.function.tokens) = pointerToPointer.function.pruned :=
  pruneSymbol_functionPointers intType pointerToPointer fun _ => by decide

/-- `( * __cdecl ( ) ) ( )` -/
def pointerToCdecl : Declarator :=
  pointing [] (by simp) (.named (functionCalled ⟨"__cdecl".toList, by decide, by decide⟩ none))

/-- A wrapped name that is a calling convention counts to the pointer; the parse fails without it. -/
theorem pruneSymbol_cdecl_differs :
    pruneSymbol (intType.text ++ " ".toList ++ joined pointerToCdecl.tokens) ≠
      pruneSymbol (joined pointerToCdecl.function.tokens) := by
  decide +kernel

end Cpptrace.PruneSymbol
