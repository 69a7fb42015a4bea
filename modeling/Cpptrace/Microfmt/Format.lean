import Cpptrace.Basic
import Cpptrace.Library.Command

/-! `microfmt::detail::format`.

Signed arithmetic wraps here. The language leaves open what follows an overflow,
as it does for a write outside a buffer, so both set `undefined` in what they
return; nothing reads it to decide anything.
-/

set_option autoImplicit false

namespace Cpptrace.Microfmt

open Library

inductive Alignment where
  | left
  | right
  deriving DecidableEq, Repr

structure FormatOptions where
  align : Alignment := .left
  fill : Char := ' '
  width : Nat := 0
  base : Char := 'd'
  deriving DecidableEq, Repr

/-- A piece of text, and whether anything undefined happened on the way to it. -/
structure Rendered where
  text : Text
  undefined : Bool
  deriving DecidableEq, Repr

def doWrite (value : Text) (options : FormatOptions) : Text :=
  let padding := List.replicate (options.width - value.length) options.fill
  if options.width ≤ value.length then value
  else
    match options.align with
    | .left => value ++ padding
    | .right => padding ++ value

section Numbers

def clz (value : UInt64) : Nat := 63 - value.toNat.log2

/-- The loop that fills `number` from its end, with the bits of a value as its bound.
The index wraps behind the first digit. -/
def digitLoop (shift mask : UInt64) (digits : Text) : Nat → UInt64 → Nat → Rendered → Rendered
  | 0, _, _, number => number
  | bits + 1, value, i, number =>
      if value = 0 then number
      else
        digitLoop shift mask digits bits (value >>> shift) ((i + (sizeModulus - 1)) % sizeModulus)
          ⟨number.text.set i (digits.getD (value &&& mask).toNat '\x00'),
            number.undefined || decide (number.text.length ≤ i)⟩

def lowerDigits : Text := "0123456789abcdef".toList

def upperDigits : Text := "0123456789ABCDEF".toList

/-- `to_string<shift, mask>`. -/
def toStringBits (shift mask : UInt64) (digits : Text) (value : UInt64) : Rendered :=
  if value = 0 then ⟨['0'], false⟩
  else
    let count := 1 + (63 - clz value) / shift.toNat
    digitLoop shift mask digits 64 value (count - 1) ⟨List.replicate count '\x00', false⟩

def toString (value : UInt64) (options : FormatOptions) : Rendered :=
  if options.base = 'H' then toStringBits 4 0xf upperDigits value
  else if options.base = 'h' then toStringBits 4 0xf lowerDigits value
  else if options.base = 'o' then toStringBits 3 0x7 lowerDigits value
  else if options.base = 'b' then toStringBits 1 0x1 lowerDigits value
  else ⟨Nat.toDigits 10 value.toNat, false⟩

end Numbers

inductive FormatValue where
  | char (value : Char)
  | int64 (value : Int64)
  | uint64 (value : UInt64)
  | string (value : Text)
  deriving DecidableEq, Repr

/-- A conversion to `int`, and what an operation on `int`s gives. -/
def toInt (value : Int) : Int := value.bmod 0x100000000

def overflowsInt (value : Int) : Bool := value < -0x80000000 || 0x7FFFFFFF < value

/-- A conversion to `size_t`. -/
def toSize (value : Int) : Nat := (value % sizeModulus).toNat

namespace FormatValue

def unwrapInt : FormatValue → Int
  | int64 value => toInt value.toInt
  | uint64 value => toInt value.toNat
  | _ => 0

/-- The sign is dropped by `val *= -1`, which overflows for the least value. -/
def write (options : FormatOptions) : FormatValue → Rendered
  | char value => ⟨doWrite [value] options, false⟩
  | int64 value =>
      let number := toString (if value < 0 then -value else value).toUInt64 options
      let sign := if value < 0 then ['-'] else []
      ⟨doWrite (sign ++ number.text) options, number.undefined || decide (value = Int64.minValue)⟩
  | uint64 value =>
      let number := toString value options
      ⟨doWrite number.text options, number.undefined⟩
  | string value => ⟨doWrite value options, false⟩

end FormatValue

/-- The text from `it` on, the arguments from `arg_i` on, and the output so far. -/
structure Scan where
  rest : Text
  args : List FormatValue
  out : Rendered
  deriving DecidableEq, Repr

def Scan.peek (scan : Scan) (dist : Nat) : Char := scan.rest.getD dist '\x00'

def Scan.put (scan : Scan) (c : Char) : Scan :=
  { scan with out := ⟨scan.out.text ++ [c], scan.out.undefined⟩ }

/-- A part of `handle_formatter`. It fails where that returns false, and keeps what it did. -/
abbrev Handler := Command Unit Scan

def advance (count : Nat) : Handler Unit :=
  modify fun scan => { scan with rest := scan.rest.drop count }

/-- `args.begin()[arg_i++]`, if there is one. -/
def nextArg : Handler (Option FormatValue) := do
  let arg := (← get).args.head?
  modify fun scan => { scan with args := scan.args.tail }
  return arg

/-- The digits from `scan` on are added to a number. -/
def readDigits : Text → Int → Bool → Text × Int × Bool
  | c :: rest, num, undefined =>
      if c.isDigit then
        let tens := num * 10
        let sum := toInt tens + (c.toNat - '0'.toNat : Nat)
        readDigits rest (toInt sum) (undefined || overflowsInt tens || overflowsInt sum)
      else (c :: rest, num, undefined)
  | [], num, undefined => ([], num, undefined)

def readNumber : Handler Int := do
  let scan ← get
  if (scan.rest.head?.any Char.isDigit) then
    let (rest, num, undefined) := readDigits scan.rest 0 scan.out.undefined
    modify fun scan => { scan with rest := rest, out := ⟨scan.out.text, undefined⟩ }
    return num
  else return -1

def parseAlignment (options : FormatOptions) : Handler FormatOptions := do
  match (← get).rest.head? with
  | some c =>
    if c = '<' ∨ c = '>' then
      advance 1
      return { options with align := if c = '<' then .left else .right }
    else return options
  | none => return options

def parseWidth (options : FormatOptions) : Handler FormatOptions := do
  let width ← readNumber
  if width ≠ -1 then return { options with width := toSize width }
  else if (← get).rest.head? = some '{' then
    if (← get).peek 1 ≠ '}' then throw ()
    advance 2
    match ← nextArg with
    | some arg => return { options with width := toSize arg.unwrapInt }
    | none => return { options with width := 0 }
  else return options

def isBase (c : Char) : Bool := c = 'd' || c = 'h' || c = 'H' || c = 'o' || c = 'b'

def parseFillBase (options : FormatOptions) : Handler FormatOptions := do
  if (← get).rest.head? = some ':' then
    advance 1
    match (← get).rest with
    | [] => return options
    | first :: behind =>
      -- `{:xh}`, a fill and a base; the base is not looked at
      if first ≠ '}' ∧ behind ≠ [] ∧ behind.head? ≠ some '}' then
        advance 2
        return { options with fill := first, base := behind.headD '\x00' }
      -- one character: a base if it is one, else a fill
      else if first ≠ '}' then
        advance 1
        if isBase first then return { options with base := first } else return { options with fill := first }
      else return options
  else return options

/-- `handle_formatter`, from the opening brace up to the closing one. -/
def handleFormatter : Handler Unit := do
  advance 1
  let options ← parseAlignment {}
  let options ← parseWidth options
  let options ← parseFillBase options
  if (← get).rest.head? ≠ some '}' then throw ()
  match ← nextArg with
  | some arg =>
    modify fun scan => { scan with
      out := ⟨scan.out.text ++ (arg.write options).text, scan.out.undefined || (arg.write options).undefined⟩ }
  -- a field without an argument is left out
  | none => return ()

/-- One round of the loop, from a character on. A brace that opens no field is written. -/
def formatStep (c : Char) (behind : Text) (scan : Scan) : Scan :=
  if (c = '{' ∨ c = '}') ∧ scan.peek 1 = c then { scan.put c with rest := behind.tail }
  else if c = '{' ∧ behind ≠ [] then
    match handleFormatter scan with
    | (.ok (), handled) => { handled with rest := handled.rest.tail }
    -- back behind the brace, but not back to the arguments that were there
    | (.error (), failed) => { failed.put c with rest := behind }
  else { scan.put c with rest := behind }

def formatLoop : Nat → Scan → Scan
  | 0, scan => scan
  | rounds + 1, scan =>
      match scan.rest with
      | [] => scan
      | c :: behind => formatLoop rounds (formatStep c behind scan)

def format (fmt : Text) (args : List FormatValue) : Rendered :=
  (formatLoop fmt.length ⟨fmt, args, ⟨[], false⟩⟩).out

end Cpptrace.Microfmt
