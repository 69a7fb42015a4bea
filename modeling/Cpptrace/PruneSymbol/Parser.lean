import Cpptrace.PruneSymbol.Tokenizer

/-! `symbol_parser` and `prune_symbol`.

A call of the source that can fail is a command over the parser's state, and
`TRY_PARSE` is a test of its result. The functions call each other, so each call
takes one unit of fuel; `pruneSymbol` starts with enough for its symbol. A loop
is a call of the same function, with the loop's variables as arguments.
-/

set_option autoImplicit false

namespace Cpptrace.PruneSymbol

open Library SymbolTokenizer

structure Output where
  nameOutput : Text
  lastWasIdentifier : Bool
  resetOutputFlag : Bool
  deriving DecidableEq, Repr

namespace Output

def append (output : Output) (token : Token) : Output :=
  let isIdentifier := token.type = .identifier
  let before :=
    if output.resetOutputFlag then []
    else if isIdentifier && output.lastWasIdentifier then output.nameOutput ++ " ".toList
    else output.nameOutput
  ⟨before ++ token.str, isIdentifier, false⟩

def reset (output : Output) : Output := { output with resetOutputFlag := true }

end Output

structure SymbolParser where
  tokenizer : SymbolTokenizer
  output : Output
  deriving DecidableEq, Repr

abbrev Parse := Command Failure SymbolParser

def onTokenizer {α : Type} (command : Tokenize α) : Parse α :=
  onPart SymbolParser.tokenizer (fun parser tokenizer => { parser with tokenizer }) command

def onOutput (change : Output → Output) : Parse Unit :=
  modify fun parser => { parser with output := change parser.output }

def SymbolParser.start (source : Text) : SymbolParser := ⟨.start source, ⟨[], false, false⟩⟩

def appendOutput (token : Token) : Parse Unit := onOutput (·.append token)

def acceptPointerRef (append : Bool) : Nat → (matched : Bool) → Parse Bool
  | 0, _ => throw .outOfFuel
  | fuel + 1, matched => do
    match ← onTokenizer peek with
    | none => return matched
    | some token =>
      if isPointerRef token then
        if append then appendOutput token
        dropResult (onTokenizer advance)
        acceptPointerRef append fuel true
      else return matched

def acceptIgnoredIdentifier : Parse Bool := do
  match ← onTokenizer peek with
  | none => return false
  | some token =>
    if token.type = .identifier && isIgnoredIdentifier token.str then
      dropResult (onTokenizer advance)
      return true
    else return false

def acceptAnonymousNamespace : Parse Bool := do
  match ← onTokenizer (acceptType .anonymousNamespace) with
  | none => return false
  | some _ =>
    appendOutput (.identifier "(anonymous namespace)".toList)
    return true

/-- `accept` where the source goes on only with the token, and fails without it. -/
def expect (wanted : Token) : Parse Token := do
  match ← onTokenizer (accept wanted) with
  | none => throw .parseError
  | some token => return token

def expectType (type : TokenType) : Parse Token := do
  match ← onTokenizer (acceptType type) with
  | none => throw .parseError
  | some token => return token

def acceptNewDelete : Parse Bool := do
  match ← onTokenizer peek with
  | none => return false
  | some token =>
    if token.type = .identifier && (token.str = "new".toList || token.str = "delete".toList) then
      dropResult (onTokenizer advance)
      appendOutput token
      match ← onTokenizer (accept (.punctuation "[")) with
      | none => return true
      | some op =>
        appendOutput op
        let op2 ← expect (.punctuation "]")
        appendOutput op2
        return true
    else return false

def acceptSpecialDecltype : Parse Bool := do
  match ← onTokenizer (accept (.identifier "decltype".toList)) with
  | none => return false
  | some token =>
    appendOutput token
    let op ← expect (.punctuation "(")
    appendOutput op
    let ident ← expectType .identifier
    if ident.str = "auto".toList || ident.str = "nullptr".toList then
      appendOutput ident
      let op2 ← expect (.punctuation ")")
      appendOutput op2
      return true
    else throw .parseError

def acceptIdentifierToken : Parse Bool := do
  let complement ← onTokenizer (accept (.punctuation "~"))
  if let some complement := complement then appendOutput complement
  match ← onTokenizer (acceptType .identifier) with
  | some token =>
    appendOutput token
    return true
  | none =>
    if complement.isSome then throw .parseError
    else return false

def lookaheadSign : Nat → Tokenize Bool
  | 0 => throw .outOfFuel
  | fuel + 1 => do
    match ← advance with
    | none => return false
    | some token =>
      if isPointerRef token then return true
      else if token.type = .identifier && isMicrosoftCallingConvention token.str then
        lookaheadSign fuel
      else return false

/-- Matches `(*`, `(__cdecl*` and the like. -/
def functionPointerAhead (fuel : Nat) : Tokenize Bool := do
  match ← accept (.punctuation "(") with
  | none => return false
  | some _ => lookaheadSign fuel

/-- The lookahead runs on a copy of the tokenizer; an error on the way means no. -/
def lookaheadIsFunctionPointer (fuel : Nat) : Parse Bool := do
  match (functionPointerAhead fuel (← get).tokenizer).1 with
  | .ok found => return found
  | .error .parseError | .error .readPastEnd => return false
  | .error failure => throw failure

/-- The signs and words between the parenthesis of a function pointer and its
symbol. The result says whether there was a sign. -/
def skipFunctionPointerModifiers : Nat → (sawPointer : Bool) → Parse Bool
  | 0, _ => throw .outOfFuel
  | fuel + 1, sawPointer => do
    match ← onTokenizer peek with
    | none => return sawPointer
    | some next =>
      if isPointerRef next then
        dropResult (onTokenizer advance)
        skipFunctionPointerModifiers fuel true
      else if next.type = .identifier
          && (isMicrosoftCallingConvention next.str || isIgnoredIdentifier next.str) then
        dropResult (onTokenizer advance)
        skipFunctionPointerModifiers fuel sawPointer
      else return sawPointer

/-- The `{lambda(...)#1}` and `{unnamed type#1}` of GCC, after the brace and the words. -/
def closeGccTag (tokens : List Token) : Parse Bool := do
  let hashToken ← expect (.punctuation "#")
  let discriminatorToken ← expectType .literal
  discard <| expect (.punctuation "\x7d")
  appendOutput (.punctuation "<")
  tokens.forM appendOutput
  appendOutput hashToken
  appendOutput discriminatorToken
  appendOutput (.punctuation ">")
  return true

/-- The `<lambda_1>` of MSVC. -/
def acceptMsvcLambda : Parse Bool := do
  match ← onTokenizer (accept (.punctuation "<")) with
  | none => return false
  | some openingBracket =>
    let lambdaToken ← expectType .identifier
    if startsWith lambdaToken.str "lambda_".toList then
      let closingBracket ← expect (.punctuation ">")
      appendOutput openingBracket
      appendOutput lambdaToken
      appendOutput closingBracket
      return true
    else throw .parseError

/-- A `::` between two fragments; the `*` is for pointers to members. -/
def acceptScopeResolution : Parse Bool := do
  match ← onTokenizer (accept (.punctuation "::")) with
  | none => return false
  | some scopeResolution =>
    appendOutput scopeResolution
    match ← onTokenizer (accept (.punctuation "*")) with
    | none => return true
    | some star =>
      appendOutput star
      return true

mutual

def consumeBalanced : Nat → (openingPunctuation : Text) → Parse Bool
  | 0, _ => throw .outOfFuel
  | fuel + 1, openingPunctuation => do
    let closingPunctuation ← MonadExcept.ofExcept (getCorrespondingPunctuation openingPunctuation)
    consumeBalancedWithin fuel openingPunctuation closingPunctuation 1

/-- The loop of `consume_balanced`. -/
def consumeBalancedWithin : Nat → (openingPunctuation closingPunctuation : Text) →
    (depth : Nat) → Parse Bool
  | 0, _, _, _ => throw .outOfFuel
  | fuel + 1, openingPunctuation, closingPunctuation, depth => do
    let isInTemplateList := openingPunctuation = "<".toList
    if depth = 0 then return true
    -- for things like `void foo<&S::operator>(S const&)>()::test`
    let acceptedOperator ← if isInTemplateList then acceptOperator fuel true else pure false
    if acceptedOperator then
      consumeBalancedWithin fuel openingPunctuation closingPunctuation depth
    else
      match ← onTokenizer (advance isInTemplateList) with
      | none => return true
      | some next =>
        if next.type ≠ .punctuation then
          consumeBalancedWithin fuel openingPunctuation closingPunctuation depth
        else if next.str = openingPunctuation then
          consumeBalancedWithin fuel openingPunctuation closingPunctuation (depth + 1)
        else if next.str = closingPunctuation then
          consumeBalancedWithin fuel openingPunctuation closingPunctuation (depth - 1)
        else if isInTemplateList && isOpeningPunctuation next.str then
          -- for things like `foo<(S > S)>`
          discard <| consumeBalanced fuel next.str
          consumeBalancedWithin fuel openingPunctuation closingPunctuation depth
        else
          consumeBalancedWithin fuel openingPunctuation closingPunctuation depth

def acceptBalancedPunctuation : Nat → Parse Bool
  | 0 => throw .outOfFuel
  | fuel + 1 => do
    match ← onTokenizer peek with
    | none => return false
    | some token =>
      if token.type = .punctuation && isOpeningPunctuation token.str then
        dropResult (onTokenizer advance)
        discard <| consumeBalanced fuel token.str
        return true
      else return false

def acceptOperator : Nat → (isInTemplateList : Bool) → Parse Bool
  | 0, _ => throw .outOfFuel
  | fuel + 1, isInTemplateList => do
    match ← onTokenizer (accept (.identifier "operator".toList)) with
    | none => return false
    | some token =>
      -- in a template list only the punctuation is looked for, and nothing is appended
      if isInTemplateList then acceptOperatorPunctuation fuel isInTemplateList
      else
        appendOutput token
        if ← acceptNewDelete then return true
        else if ← acceptSpecialDecltype then return true
        else
          match ← onTokenizer (accept (.identifier "co_await".toList)) with
          | some coawait =>
            appendOutput coawait
            return true
          | none =>
            match ← onTokenizer (accept (.literal "\"\"".toList)) with
            | some literal =>
              let name ← expectType .identifier
              appendOutput literal
              appendOutput name
              return true
            | none => acceptOperatorPunctuation fuel isInTemplateList

/-- The rest of `accept_operator`: punctuation, or the types of a conversion operator. -/
def acceptOperatorPunctuation : Nat → (isInTemplateList : Bool) → Parse Bool
  | 0, _ => throw .outOfFuel
  | fuel + 1, isInTemplateList => do
    match ← onTokenizer (acceptType .punctuation) with
    | some op =>
      if !isInTemplateList then appendOutput op
      if op.str = "(".toList || op.str = "[".toList then
        match ← onTokenizer (acceptType .punctuation) with
        | none => throw .parseError
        | some op2 =>
          let closing ← MonadExcept.ofExcept (getCorrespondingPunctuation op.str)
          if op2.str ≠ closing then throw .parseError
          else
            if !isInTemplateList then appendOutput op2
            return true
      else return true
    | none =>
      if isInTemplateList then return false
      else
        -- a conversion operator: its type, and for a pointer to a member the type it points to
        discard <| parseSymbol fuel false
        match ← onTokenizer peek with
        | none => return true
        | some maybeIdent =>
          if maybeIdent.type = .identifier then discard <| parseSymbol fuel false
          return true

def consumePunctuation : Nat → (didConsume : Bool) → Parse Bool
  | 0, _ => throw .outOfFuel
  | fuel + 1, didConsume => do
    match ← onTokenizer peek with
    | none => return didConsume
    | some token =>
      if token.type = .punctuation && token.str ≠ "::".toList && token.str ≠ "#".toList then
        if ← acceptBalancedPunctuation fuel then consumePunctuation fuel true
        else
          -- other punctuation is dropped
          dropResult (onTokenizer advance)
          consumePunctuation fuel true
      else return didConsume

def acceptLambdaOrUnnamed : Nat → Parse Bool
  | 0 => throw .outOfFuel
  | fuel + 1 => do
    match ← onTokenizer (accept (.punctuation "\x7b")) with
    | some _ =>
      match ← onTokenizer (accept (.identifier "lambda".toList)) with
      | some lambdaToken =>
        -- `main::{lambda(int)#1}::operator()(int)`
        discard <| consumePunctuation fuel false
        closeGccTag [lambdaToken]
      | none =>
        let unnamedToken ← expect (.identifier "unnamed".toList)
        let typeToken ← expect (.identifier "type".toList)
        discard <| consumePunctuation fuel false
        closeGccTag [unnamedToken, typeToken]
    | none =>
      match ← onTokenizer peek with
      | none => acceptMsvcLambda
      | some token =>
        -- `main::'lambda'(int)::operator()(int)`
        if token.type = .literal
            && (startsWith token.str "'lambda".toList || startsWith token.str "'unnamed".toList)
            && endsWith token.str "'".toList then
          dropResult (onTokenizer advance)
          appendOutput (.punctuation "<")
          appendOutput ⟨.punctuation, (token.str.drop 1).take (token.str.length - 2)⟩
          appendOutput (.punctuation ">")
          return true
        else if token.type = .literal && startsWith token.str "`".toList
            && endsWith token.str "'".toList then
          dropResult (onTokenizer advance)
          appendOutput (.punctuation "`")
          if token.str.length < 2 then
            throw (.exception (.internalError .assert "symbol.size() >= 2" none))
          -- the inside is a symbol again
          let name ← MonadExcept.ofExcept
            (pruneSymbolWith fuel ((token.str.drop 1).take (token.str.length - 2)))
          appendOutput (.literal name)
          appendOutput (.punctuation "'")
          return true
        else acceptMsvcLambda

def parseSymbolTerm : Nat → Parse Bool
  | 0 => throw .outOfFuel
  | fuel + 1 => do
    if ← acceptAnonymousNamespace then return true
    else if ← acceptOperator fuel false then return true
    else if ← acceptIdentifierToken then return true
    else acceptLambdaOrUnnamed fuel

def consumePunctuationAndTrailingModifiers : Nat → (didConsume : Bool) → Parse Bool
  | 0, _ => throw .outOfFuel
  | fuel + 1, didConsume => do
    match ← onTokenizer peek with
    | none => return didConsume
    | some _ =>
      if ← acceptBalancedPunctuation fuel then consumePunctuationAndTrailingModifiers fuel true
      else if ← acceptIgnoredIdentifier then consumePunctuationAndTrailingModifiers fuel true
      else if ← acceptPointerRef false fuel false then
        consumePunctuationAndTrailingModifiers fuel true
      else return didConsume

def parseFunctionPointer : Nat → Parse Bool
  | 0 => throw .outOfFuel
  | fuel + 1 => do
    if !(← lookaheadIsFunctionPointer fuel) then
      throw (.exception (.internalError .assert "lookahead_is_function_pointer()" none))
    match ← onTokenizer (accept (.punctuation "(")) with
    | none => return false
    | some _ =>
      if ← skipFunctionPointerModifiers fuel false then
        -- what came before was the type that is returned
        onOutput .reset
        if ← parseSymbol fuel false then
          discard <| expect (.punctuation ")")
          return true
        else throw .parseError
      else throw .parseError

def parseSymbolBase : Nat → Parse Bool
  | 0 => throw .outOfFuel
  | fuel + 1 => do
    let matchedTerm ← parseSymbolTerm fuel
    if ← lookaheadIsFunctionPointer fuel then
      let matchedPointer ← parseFunctionPointer fuel
      return matchedTerm || matchedPointer
    else return matchedTerm

def parseSymbol : Nat → (madeProgress : Bool) → Parse Bool
  | 0, _ => throw .outOfFuel
  | fuel + 1, madeProgress => do
    match ← onTokenizer peek with
    | none => return madeProgress
    | some _ =>
      if ← parseSymbolBase fuel then
        discard <| acceptPointerRef true fuel false
        discard <| consumePunctuationAndTrailingModifiers fuel false
        if ← acceptScopeResolution then parseSymbol fuel true
        else return true
      else return madeProgress

def parse : Nat → Parse Unit
  | 0 => throw .outOfFuel
  | fuel + 1 => do
    match ← onTokenizer peek with
    | none => return ()
    | some _ =>
      -- each symbol drops the one before it, so the last one stays
      onOutput .reset
      if ← parseSymbol fuel false then parse fuel
      else throw .parseError

/-- `detail::prune_symbol`. A read past the end counts as a parse error. -/
def pruneSymbolWith : Nat → (symbol : Text) → Except Failure Text
  | 0, _ => throw .outOfFuel
  | fuel + 1, symbol =>
    match parse fuel (SymbolParser.start symbol) with
    | (.ok (), parser) =>
      let name := parser.output.nameOutput
      pure (if name.isEmpty then symbol else name)
    | (.error .parseError, _) | (.error .readPastEnd, _) => pure symbol
    | (.error failure, _) => throw failure

end

def fuelFor (symbol : Text) : Nat := 8 * (symbol.length + 1)

namespace Detail

def pruneSymbol (symbol : Text) : Except Failure Text := pruneSymbolWith (fuelFor symbol) symbol

end Detail

/-- The exported `prune_symbol`, where an exception is absorbed. -/
def pruneSymbol (symbol : Text) : Text :=
  match Detail.pruneSymbol symbol with
  | .ok pruned => pruned
  | .error _ => symbol

end Cpptrace.PruneSymbol
