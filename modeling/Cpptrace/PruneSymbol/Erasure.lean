import Cpptrace.PruneSymbol.FunctionSymbol

/-! Pruning the symbol of a function leaves its qualified name.

The types before the name are parsed as symbols of their own. Each parse of a
symbol resets the output, so only the last name stays.
-/

set_option autoImplicit false

namespace Cpptrace.PruneSymbol

open Library SymbolTokenizer

theorem templateToken_plain : PlainInTemplate TemplateToken := by
  intro token is
  cases is with
  | identifier text valid keyword =>
    simpa [CountedInTemplate, Token.identifier, Token.punctuation] using keyword
  | number text valid => simp [CountedInTemplate, Token.identifier, Token.punctuation, Token.literal]
  | punctuation str listed =>
    have counted : ∀ str ∈ [",", "::", "*", "&"], CountedInTemplate (.punctuation str) ∧
        Token.punctuation str ≠ .punctuation "<" ∧ Token.punctuation str ≠ .punctuation ">" := by
      decide
    exact counted str listed

theorem parameterToken_plain : PlainInParentheses ParameterToken := by
  intro token is
  cases is with
  | identifier text valid => simp [Token.identifier, Token.punctuation]
  | number text valid => simp [Token.literal, Token.punctuation]
  | punctuation str listed =>
    have counted : ∀ str ∈ [",", "::", "*", "&", "<", ">"],
        Token.punctuation str ≠ .punctuation "(" ∧ Token.punctuation str ≠ .punctuation ")" := by
      decide
    exact counted str listed

theorem Part.trails (part : Part) {tail : List Token} (trails : Trailing tail) :
    Trailing (part.templateTokens ++ tail) := by
  obtain ⟨identifier, template⟩ := part
  cases template with
  | none => exact trails
  | some list => exact .bracketed (.angled templateToken_plain parameterToken_plain list.wellFormed) trails

theorem Part.head_templateTokens (part : Part) :
    ∀ next ∈ part.templateTokens.head?, next = .punctuation "<" := by
  obtain ⟨identifier, template⟩ := part
  cases template with
  | none => simp [Part.templateTokens]
  | some list => simp [Part.templateTokens, TemplateList.tokens]

theorem trails_modifiers (modifiers : List TypeModifier) :
    Trailing (modifiers.map TypeModifier.token) := by
  induction modifiers with
  | nil => exact .nil
  | cons modifier modifiers ih =>
    cases modifier with
    | const => exact .ignored (by decide) ih
    | star | ampersand => exact .sign (by decide) ih

theorem trails_qualifiers (qualifiers : List FunctionQualifier) :
    Trailing (qualifiers.map FunctionQualifier.token) := by
  induction qualifiers with
  | nil => exact .nil
  | cons qualifier qualifiers ih =>
    cases qualifier with
    | const | volatile | noexcept => exact .ignored (by decide) ih
    | ampersand | ampersandAmpersand => exact .sign (by decide) ih

theorem FunctionSymbol.trails (symbol : FunctionSymbol) : Trailing symbol.tail :=
  .bracketed (.parenthesized parameterToken_plain symbol.parameters.wellFormed) (trails_qualifiers symbol.qualifiers)

def appendPart (output : Output) (part : Part) : Output :=
  (output.append (.punctuation "::")).append (.identifier part.identifier.text)

def outputOf (output : Output) (first : Part) (rest : List Part) : Output :=
  rest.foldl appendPart (output.append (.identifier first.identifier.text))

theorem outputOf_reset (output : Output) (first : Part) (rest : List Part) :
    outputOf output.reset first rest = ⟨QualifiedName.pruned ⟨first, rest⟩, true, false⟩ :=
  segmentsOutput_reset (fun part : Part => part.identifier.text) output first rest

/-- A name up to its last part, which `last` takes together with what follows the name. -/
theorem parseSymbol_name (tail : List Token) (after : Output → SymbolParser → Prop)
    (last : ∀ (part : Part) (output : Output) (fuel : Nat) (madeProgress : Bool),
      2 * (part.tokens.length + tail.length) + 4 ≤ fuel →
        Returns (At (part.tokens ++ tail) output) (parseSymbol fuel madeProgress) true
          (after (output.append (.identifier part.identifier.text))))
    (first : Part) (rest : List Part) (output : Output) (fuel : Nat) (madeProgress : Bool)
    (enough : 2 * ((QualifiedName.tokens ⟨first, rest⟩).length + tail.length) + 4 ≤ fuel) :
    Returns (At (QualifiedName.tokens ⟨first, rest⟩ ++ tail) output) (parseSymbol fuel madeProgress)
      true (after (outputOf output first rest)) := by
  refine parseSymbol_segments (fun part : Part => part.identifier.text) Part.templateTokens
    (fun part => part.identifier.unreserved.1)
    (fun part => by simpa using part.trails .nil) Part.head_templateTokens tail (2 * tail.length) after
    (fun part output fuel madeProgress most => ?_) first rest output fuel madeProgress
    (by rw [Nat.mul_add] at enough; exact enough)
  exact last part output fuel madeProgress (by simp only [Part.tokens, List.length_cons]; omega)

theorem parseSymbol_function (symbol : FunctionSymbol) (part : Part) (output : Output) (fuel : Nat)
    (madeProgress : Bool) (enough : 2 * (part.tokens.length + symbol.tail.length) + 4 ≤ fuel) :
    Returns (At (part.tokens ++ symbol.tail) output) (parseSymbol fuel madeProgress) true
      (At [] (output.append (.identifier part.identifier.text))) := by
  have pointer : ∀ next others, symbol.tail ++ [] = .punctuation "(" :: next :: others → OpensNoPointer next := by
    simpa [FunctionSymbol.tail, ParameterList.tokens] using
      opensNoPointer_inside symbol.parameters.inner _ symbol.parameters.opens
  have size : 2 * (part.templateTokens.length + symbol.tail.length) + 4 ≤ fuel := by
    simp only [Part.tokens, List.length_cons] at enough
    omega
  have called := parseSymbol_called output part.identifier.unreserved.1 (part.trails symbol.trails)
      part.head_templateTokens rfl pointer (by simp)
    (by simp) size madeProgress
  simpa [Part.tokens] using called

def StartsName (following : List Token) : Prop :=
  ∃ identifier : Identifier, following.head? = some (.identifier identifier.text)

/-- The last part of a type's name, with its modifiers. The output is left open:
signs may have been appended. -/
theorem parseSymbol_type (modifiers : List TypeModifier) (following : List Token)
    (starts : StartsName following) (part : Part) (output : Output) (fuel : Nat) (madeProgress : Bool)
    (enough : 2 * (part.tokens.length + (modifiers.length + following.length)) + 4 ≤ fuel) :
    Returns (At (part.tokens ++ (modifiers.map TypeModifier.token ++ following)) output)
      (parseSymbol fuel madeProgress) true (fun parser => Reads following parser.tokenizer) := by
  obtain ⟨identifier, starts⟩ := starts
  -- a template list comes before the modifiers, so the signs are those right after the name
  obtain ⟨signs, others, same, are, trailing, ends⟩ :=
    (part.trails (trails_modifiers modifiers)).leadingSigns
  have text : part.tokens ++ (modifiers.map TypeModifier.token ++ following) =
      .identifier part.identifier.text :: (signs ++ (others ++ following)) := by
    rw [Part.tokens, List.cons_append, ← List.append_assoc, same, List.append_assoc]
  have size : signs.length + 2 * others.length + 4 ≤ fuel := by
    have lengths := congrArg List.length same
    simp only [List.length_append, List.length_map] at lengths
    simp only [Part.tokens, List.length_cons] at enough
    omega
  have opening : (signs ++ (others ++ following)).head? ≠ some (.punctuation "(") := by
    rw [← List.append_assoc, ← same]
    cases list : part.templateTokens with
    | nil =>
      cases modifiers with
      | nil => simp [starts, Token.identifier, Token.punctuation]
      | cons modifier modifiers =>
        cases modifier <;> simp [TypeModifier.token, Token.identifier, Token.punctuation]
    | cons token tokens =>
      have head := part.head_templateTokens
      rw [list] at head
      simp [head token rfl, Token.punctuation]
  have noSign : ∀ next ∈ (others ++ following).head?, isPointerRef next = false := by
    cases others with
    | nil => simp [starts, isPointerRef, Token.identifier]
    | cons token others => exact ends
  have stops : ∀ next ∈ following.head?, Stops next := by
    intro next head
    rw [starts] at head
    cases head
    refine ⟨by simp [Token.identifier], rfl, ?_⟩
    rintro name ⟨⟩
    exact identifier.unreserved.2
  have scope : following.head? ≠ some (.punctuation "::") := by
    simp [starts, Token.identifier, Token.punctuation]
  rw [text]
  have parsed := parseSymbol_last output signs part.identifier.unreserved.1 are trailing
    (fun _ _ begins => absurd (by rw [begins]; rfl) opening) noSign stops scope size madeProgress
  exact parsed.weaken (fun _ holds => holds) fun _ holds => holds.1

/-- One round of the loop: the output is reset, and the symbol ahead is parsed. -/
theorem parse_symbol {tokens : List Token} {output : Output} {middle after : SymbolParser → Prop}
    (fuel : Nat) (nonempty : tokens ≠ [])
    (symbol : Returns (At tokens output.reset) (parseSymbol fuel false) true middle)
    (next : Returns middle (parse fuel) () after) :
    Returns (At tokens output) (parse (fuel + 1)) () after := by
  rw [parse]
  apply At.peek.bind
  cases tokens with
  | nil => cases nonempty rfl
  | cons token tokens =>
    exact (At.onOutput Output.reset).bind (symbol.bind next)

theorem parse_done {output : Output} (fuel : Nat) :
    Returns (At [] output) (parse (fuel + 1)) () (At [] output) := by
  rw [parse]
  exact At.peek.bind (.pure _ ())

theorem Returns.of_reads {α : Type} {tokens : List Token} {command : Parse α} {value : α}
    {after : SymbolParser → Prop}
    (valid : ∀ output, Returns (At tokens output) command value after) :
    Returns (fun parser => Reads tokens parser.tokenizer) command value after :=
  fun parser reads => valid parser.output parser ⟨reads, rfl⟩

theorem parse_function (symbol : FunctionSymbol) (output : Output) (fuel : Nat)
    (enough : 2 * (symbol.name.tokens ++ symbol.tail).length + 5 ≤ fuel) :
    Returns (At (symbol.name.tokens ++ symbol.tail) output) (parse fuel) ()
      (At [] ⟨symbol.name.pruned, true, false⟩) := by
  rw [List.length_append] at enough
  match fuel, enough with
  | fuel + 2, enough =>
    have parsed := parseSymbol_name symbol.tail (fun output => At [] output)
      (parseSymbol_function symbol) symbol.name.first symbol.name.rest output.reset (fuel + 1) false
      (show 2 * (symbol.name.tokens.length + _) + 4 ≤ _ by omega)
    rw [outputOf_reset] at parsed
    apply parse_symbol (fuel + 1) (by simp [QualifiedName.tokens, Part.tokens]) parsed
    exact parse_done fuel

theorem startsName_types (types : List TypeName) (name : QualifiedName) (tail : List Token) :
    StartsName (types.flatMap TypeName.tokens ++ (name.tokens ++ tail)) := by
  cases types with
  | nil => exact ⟨name.first.identifier, rfl⟩
  | cons type types => exact ⟨type.name.first.identifier, rfl⟩

theorem parse_types (symbol : FunctionSymbol) (types : List TypeName) (output : Output) (fuel : Nat)
    (enough : 2 * (types.flatMap TypeName.tokens ++ (symbol.name.tokens ++ symbol.tail)).length + 5 ≤ fuel) :
    Returns (At (types.flatMap TypeName.tokens ++ (symbol.name.tokens ++ symbol.tail)) output)
      (parse fuel) () (At [] ⟨symbol.name.pruned, true, false⟩) := by
  induction types generalizing output fuel with
  | nil => exact parse_function symbol output fuel enough
  | cons type types ih =>
    have text : (type :: types).flatMap TypeName.tokens ++ (symbol.name.tokens ++ symbol.tail) =
        type.name.tokens ++ (type.modifiers.map TypeModifier.token ++
          (types.flatMap TypeName.tokens ++ (symbol.name.tokens ++ symbol.tail))) := by
      simp [TypeName.tokens]
    rw [text, List.length_append, List.length_append] at enough
    have starts := startsName_types types symbol.name symbol.tail
    cases fuel with
    | zero => omega
    | succ fuel =>
      have parsed := parseSymbol_name _ (fun _ parser => Reads _ parser.tokenizer)
        (fun part output fuel madeProgress enough => parseSymbol_type type.modifiers _ starts part
          output fuel madeProgress (by simpa using enough))
        type.name.first type.name.rest output.reset fuel false (by simp at enough ⊢; omega)
      have nonempty : 0 < type.name.tokens.length := by simp [QualifiedName.tokens, Part.tokens]
      rw [text]
      apply parse_symbol fuel (by simp [QualifiedName.tokens, Part.tokens]) parsed
      apply Returns.of_reads
      exact fun output => ih output fuel (by omega)

theorem Identifier.text_append_nonempty (identifier : Identifier) (rest : Text) :
    (identifier.text ++ rest).isEmpty = false := by
  have valid := identifier.valid
  cases text : identifier.text with
  | nil =>
    rw [text] at valid
    cases valid
  | cons c text => rfl

theorem QualifiedName.pruned_nonempty (name : QualifiedName) : name.pruned.isEmpty = false :=
  name.first.identifier.text_append_nonempty _

theorem pruneSymbolWith_of_parse (text name : Text) (fuel : Nat) (nonempty : name.isEmpty = false)
    (parsed : Returns (fun parser => parser = SymbolParser.start text) (parse fuel) ()
      fun parser => parser.output.nameOutput = name) :
    pruneSymbolWith (fuel + 1) text = .ok name := by
  have returned := parsed (SymbolParser.start text) rfl
  rw [pruneSymbolWith]
  cases result : parse fuel (SymbolParser.start text) with
  | mk outcome parser =>
    rw [result] at returned
    obtain ⟨success, output⟩ := returned
    cases success
    have same : parser.output.nameOutput = name := output
    show pure (if parser.output.nameOutput.isEmpty then text else parser.output.nameOutput) = _
    rw [same, nonempty]
    rfl

/-- A text that is read as tokens that parse to a name is pruned to it. -/
theorem Lexes.pruneSymbol {text name : Text} {tokens : List Token} (lexes : Lexes text tokens)
    (nonempty : name.isEmpty = false)
    (parsed : Returns (At tokens ⟨[], false, false⟩) (parse (8 * text.length + 7)) ()
      (At [] ⟨name, true, false⟩)) :
    Detail.pruneSymbol text = .ok name := by
  apply pruneSymbolWith_of_parse text name (8 * text.length + 7) nonempty
  apply parsed.weaken
  · rintro parser rfl
    exact ⟨.unloaded lexes, rfl⟩
  · rintro parser ⟨-, output⟩
    exact congrArg Output.nameOutput output

/-- Pruning leaves the qualified name: types, template lists, parameters and qualifiers go. -/
theorem pruneSymbol_erases (symbol : FunctionSymbol) (gap : Nat) :
    Detail.pruneSymbol (symbol.text gap) = .ok symbol.name.pruned ∧
      pruneSymbol (symbol.text gap) = symbol.name.pruned := by
  have lexes := symbol.lexes gap
  have size := lexes.length_le
  have parsed := parse_types symbol symbol.types ⟨[], false, false⟩ (8 * (symbol.text gap).length + 7)
    (by simp only [FunctionSymbol.tokens] at size; omega)
  have pruned := lexes.pruneSymbol symbol.name.pruned_nonempty parsed
  constructor
  · exact pruned
  · unfold pruneSymbol
    rw [pruned]

end Cpptrace.PruneSymbol
