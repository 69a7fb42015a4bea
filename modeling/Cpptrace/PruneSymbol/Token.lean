import Cpptrace.Basic
import Mathlib.Data.List.Sort

/-! The tokens of a demangled symbol.

The character tests are those of the C locale. Punctuators are tried longest
first, so the list is kept sorted by size.
-/

set_option autoImplicit false

namespace Cpptrace.PruneSymbol

def isSpace (c : Char) : Bool :=
  c = ' ' || c = '\t' || c = '\n' || c = '\r' || c = '\x0b' || c = '\x0c'

def isIdentifierStart (c : Char) : Bool := c.isAlpha || c = '$' || c = '_'

def isIdentifierContinue (c : Char) : Bool := c.isDigit || isIdentifierStart c

/-- The punctuators in the order the source lists them; `#` is there for `lambda()#1`.
The braces are written by their codes. -/
def listedPunctuators : List Text :=
  ["\x7b", "\x7d", "[", "]", "(", ")",
    "<:", ":>", "<%", "%>", ";", ":", "...",
    "?", "::", ".", ".*", "->", "->*", "~",
    "!", "+", "-", "*", "/", "%", "^", "&", "|",
    "=", "+=", "-=", "*=", "/=", "%=", "^=", "&=", "|=",
    "==", "!=", "<", ">", "<=", ">=", "<=>", "&&", "||",
    "<<", ">>", "<<=", ">>=", "++", "--", ",",
    "#"].map String.toList

def punctuatorsAndOperators : List Text :=
  listedPunctuators.insertionSort fun a b => a.length ≥ b.length

def anonymousNamespaceSpellings : List Text :=
  ["(anonymous namespace)".toList, "`anonymous namespace'".toList]

/-- Why the parser stops. A read beyond the end of the source is undefined in
C++; it is kept apart from the parse errors that the code reports. -/
inductive Failure where
  | parseError
  | readPastEnd
  | exception (thrown : Exception)
  | outOfFuel
  deriving DecidableEq, Repr

def isOpeningPunctuation (token : Text) : Bool :=
  token = "(".toList || token = "[".toList || token = "\x7b".toList || token = "<".toList

def getCorrespondingPunctuation (token : Text) : Except Failure Text :=
  if token = "(".toList then pure ")".toList
  else if token = "[".toList then pure "]".toList
  else if token = "\x7b".toList then pure "\x7d".toList
  else if token = "<".toList then pure ">".toList
  else throw (.exception (.internalError .panic "" none))

def isIgnoredIdentifier (string : Text) : Bool :=
  string = "const".toList || string = "volatile".toList || string = "decltype".toList
    || string = "noexcept".toList

def isMicrosoftCallingConvention (string : Text) : Bool :=
  string = "__cdecl".toList || string = "__clrcall".toList || string = "__stdcall".toList
    || string = "__fastcall".toList || string = "__thiscall".toList
    || string = "__vectorcall".toList

inductive TokenType where
  | identifier
  | punctuation
  | literal
  | anonymousNamespace
  deriving DecidableEq, Repr

structure Token where
  type : TokenType
  str : Text
  deriving DecidableEq, Repr

namespace Token

def identifier (str : Text) : Token := ⟨.identifier, str⟩

def punctuation (str : String) : Token := ⟨.punctuation, str.toList⟩

def literal (str : Text) : Token := ⟨.literal, str⟩

end Token

def isPointerRef (token : Token) : Bool :=
  token.type = .punctuation
    && (token.str = "*".toList || token.str = "&".toList || token.str = "&&".toList)

end Cpptrace.PruneSymbol
