import Cpptrace.PruneSymbol.Token
import Cpptrace.Library.Command

/-! `symbol_tokenizer`: a source text and at most one token read ahead.

The peeks look at a source without leading white space. A loaded token stays
cached until it is consumed, and what is consumed is as long as the token that
was handed out: for `>>` inside a template argument list that is one character.
-/

set_option autoImplicit false

namespace Cpptrace.PruneSymbol

open Library

def startsWith (source text : Text) : Bool := text = source.take text.length

def endsWith (source text : Text) : Bool :=
  text.length ≤ source.length && text = source.drop (source.length - text.length)

def peekAnonymousNamespace (source : Text) : Option Token :=
  (anonymousNamespaceSpellings.find? (startsWith source)).map fun spelling =>
    ⟨.anonymousNamespace, source.take spelling.length⟩

def isNumberContinue (c : Char) : Bool :=
  c.isDigit || isIdentifierContinue c || c = '\'' || c = '-' || c = '+' || c = '.'

def peekNumber (source : Text) : Option Token :=
  match source with
  | [] => none
  | c :: _ => if c.isDigit then some ⟨.literal, source.takeWhile isNumberContinue⟩ else none

def scanMsvcString : Text → (depth : Nat) → Option Text
  | [], _ => none
  | c :: rest, depth =>
      let depth := if c = '`' then depth + 1 else if c = '\'' then depth - 1 else depth
      if depth = 0 then some [c] else (scanMsvcString rest depth).map (c :: ·)

/-- `` `this' ``; such strings nest. -/
def peekMsvcString (source : Text) : Except Failure (Option Token) :=
  match source with
  | [] => pure none
  | c :: _ =>
      if c = '`' then
        match scanMsvcString source 0 with
        | some str => pure (some ⟨.literal, str⟩)
        | none => throw .parseError
      else pure none

/-- The characters up to the closing quote. A backslash takes two characters
with it, so one before the last character of the source leaves the cursor
beyond the end. -/
def scanQuotedString (closingQuote : Char) : Text → Except Failure Text
  | [] => throw .parseError
  | c :: rest =>
      if c = closingQuote then pure [c]
      else if c = '\\' then
        match rest with
        | [] => throw .parseError
        -- `cursor += 2` and the increment of the loop
        | [_] => throw .readPastEnd
        | escaped :: skipped :: rest => do
            let scanned ← scanQuotedString closingQuote rest
            pure (c :: escaped :: skipped :: scanned)
      else do
        let scanned ← scanQuotedString closingQuote rest
        pure (c :: scanned)

def parseQuotedString (source : Text) : Except Failure (Option Token) :=
  match source with
  | [] => pure none
  | c :: rest =>
      if c = '\'' || c = '"' then do
        let scanned ← scanQuotedString c rest
        pure (some ⟨.literal, c :: scanned⟩)
      else pure none

def peekLiteral (source : Text) : Except Failure (Option Token) := do
  if let some number := peekNumber source then return some number
  if let some msvcString ← peekMsvcString source then return some msvcString
  parseQuotedString source

def peekPunctuation (source : Text) : Option Token :=
  (punctuatorsAndOperators.find? (startsWith source)).map fun punctuation =>
    ⟨.punctuation, source.take punctuation.length⟩

def peekIdentifier (source : Text) : Option Token :=
  match source with
  | [] => none
  | c :: _ =>
      if isIdentifierStart c then some ⟨.identifier, source.takeWhile isIdentifierContinue⟩
      else none

def peekMisc (source : Text) : Except Failure Token :=
  match source with
  | [] => throw (.exception (.internalError .assert "!source.empty()" none))
  | c :: _ => pure ⟨.punctuation, [c]⟩

/-- The token at the front of a source that is not empty and starts with no white space. -/
def tokenAt (source : Text) : Except Failure Token := do
  if let some anon := peekAnonymousNamespace source then return anon
  if let some literal ← peekLiteral source then return literal
  if let some punctuation := peekPunctuation source then return punctuation
  if let some identifier := peekIdentifier source then return identifier
  peekMisc source

structure SymbolTokenizer where
  source : Text
  nextToken : Option Token
  deriving DecidableEq, Repr

abbrev Tokenize := Command Failure SymbolTokenizer

namespace SymbolTokenizer

def start (source : Text) : SymbolTokenizer := ⟨source, none⟩

def maybeLoadNextToken : Tokenize Unit := do
  if (← get).nextToken.isSome then return ()
  modify fun tokenizer => { tokenizer with source := tokenizer.source.dropWhile isSpace }
  let source := (← get).source
  if source.isEmpty then return ()
  let token ← MonadExcept.ofExcept (tokenAt source)
  modify fun tokenizer => { tokenizer with nextToken := some token }

/-- In a template argument list `>>` is two closing brackets. -/
def adjusted (inTemplateArgumentList : Bool) (token : Token) : Token :=
  if inTemplateArgumentList && token = .punctuation ">>" then { token with str := token.str.take 1 }
  else token

def getAdjustedNextToken (inTemplateArgumentList : Bool) : Tokenize (Option Token) := do
  return (← get).nextToken.map (adjusted inTemplateArgumentList)

def peek (inTemplateArgumentList : Bool := false) : Tokenize (Option Token) := do
  maybeLoadNextToken
  getAdjustedNextToken inTemplateArgumentList

def advance (inTemplateArgumentList : Bool := false) : Tokenize (Option Token) := do
  let next ← peek inTemplateArgumentList
  match next with
  | none => return none
  | some token =>
    modify fun tokenizer => ⟨tokenizer.source.drop token.str.length, none⟩
    return next

/-- What both overloads of `accept` do; they differ in what they compare. -/
def acceptWhen (wanted : Token → Bool) (inTemplateArgumentList : Bool) :
    Tokenize (Option Token) := do
  let next ← peek inTemplateArgumentList
  match next with
  | none => return none
  | some token =>
    if wanted token then
      dropResult advance
      return next
    else return none

def acceptType (type : TokenType) (inTemplateArgumentList : Bool := false) :
    Tokenize (Option Token) :=
  acceptWhen (fun token => token.type = type) inTemplateArgumentList

def accept (wanted : Token) (inTemplateArgumentList : Bool := false) : Tokenize (Option Token) :=
  acceptWhen (fun token => token = wanted) inTemplateArgumentList

end SymbolTokenizer

end Cpptrace.PruneSymbol
