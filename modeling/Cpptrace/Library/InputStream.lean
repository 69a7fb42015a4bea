import Cpptrace.Library.Command

/-! A text stream with formatted input, as in the C++ standard library.

An extraction does nothing to a stream whose flags are set, apart from setting
the fail flag. The end of the input is noticed by whatever looks beyond it, so a
number at the very end is read and sets the end flag all the same.
-/

set_option autoImplicit false

namespace Cpptrace.Library

structure InputStream where
  rest : List Char
  eof : Bool
  fail : Bool
  deriving DecidableEq, Repr

namespace InputStream

def good (stream : InputStream) : Bool := !stream.eof && !stream.fail

def isSpace (c : Char) : Bool := c = ' ' || c = '\t' || c = '\n' || c = '\x0b' || c = '\x0c' || c = '\r'

def failed (stream : InputStream) : InputStream := { stream with fail := true }

/-- The stream behind some characters that were looked at; the end flag is set at its end. -/
def behind (rest : List Char) (fail : Bool) : InputStream := ⟨rest, rest = [], fail⟩

/-- `stream >> c`, with any character where there is none. -/
def takeChar (stream : InputStream) : Char × InputStream :=
  if stream.good then
    match stream.rest.dropWhile isSpace with
    | [] => ('\x00', ⟨[], true, true⟩)
    | c :: rest => (c, ⟨rest, false, false⟩)
  else ('\x00', stream.failed)

/-- `stream.ignore(1)`. -/
def ignoreOne (stream : InputStream) : InputStream :=
  if stream.good then
    match stream.rest with
    | [] => ⟨[], true, false⟩
    | _ :: rest => ⟨rest, false, false⟩
  else stream.failed

/-- `stream.ignore(n, delimiter)`, without a bound. -/
def ignorePast (delimiter : Char) (stream : InputStream) : InputStream :=
  if stream.good then
    match stream.rest.dropWhile (· ≠ delimiter) with
    | [] => ⟨[], true, false⟩
    | _ :: rest => ⟨rest, false, false⟩
  else stream.failed

def hexDigit (c : Char) : Option Nat :=
  if '0' ≤ c ∧ c ≤ '9' then some (c.toNat - '0'.toNat)
  else if 'a' ≤ c ∧ c ≤ 'f' then some (c.toNat - 'a'.toNat + 10)
  else if 'A' ≤ c ∧ c ≤ 'F' then some (c.toNat - 'A'.toNat + 10)
  else none

def hexDigits : List Char → List Nat × List Char
  | [] => ([], [])
  | c :: rest =>
      match hexDigit c with
      | none => ([], c :: rest)
      | some digit => (digit :: (hexDigits rest).1, (hexDigits rest).2)

def hexSign : List Char → Bool × List Char
  | '-' :: rest => (true, rest)
  | '+' :: rest => (false, rest)
  | text => (false, text)

/-- A number may be written with `0x` in front of it. -/
def dropPrefix : List Char → List Char
  | '0' :: 'x' :: rest => rest
  | '0' :: 'X' :: rest => rest
  | text => text

/-- `stream >> std::hex >> value` for an unsigned type with so many values. A value that does not fit
is the greatest one, a value with a minus sign is negated. -/
def takeHex (modulus : Nat) (stream : InputStream) : Nat × InputStream :=
  if stream.good then
    match stream.rest.dropWhile isSpace with
    | [] => (0, ⟨[], true, true⟩)
    | text =>
        let (negative, body) := hexSign text
        let (digits, rest) := hexDigits (dropPrefix body)
        let value := digits.foldl (fun value digit => 16 * value + digit) 0
        if digits = [] then (0, behind rest true)
        else if modulus ≤ value then (modulus - 1, behind rest true)
        else (if negative then (modulus - value) % modulus else value, behind rest false)
  else (0, stream.failed)

section Shrinking

variable (stream : InputStream)

theorem takeChar_shrinks : (takeChar stream).2.rest.length ≤ stream.rest.length := by
  have dropped := (List.dropWhile_suffix isSpace (l := stream.rest)).length_le
  unfold takeChar
  split
  · split
    · exact Nat.zero_le _
    next c rest same =>
      rw [same] at dropped
      exact Nat.le_of_succ_le dropped
  · exact Nat.le_refl _

theorem takeChar_consumes (taken : (takeChar stream).2.fail = false) :
    (takeChar stream).2.rest.length < stream.rest.length := by
  have dropped := (List.dropWhile_suffix isSpace (l := stream.rest)).length_le
  unfold takeChar at taken ⊢
  split
  next good =>
    rw [if_pos good] at taken
    split
    next same => simp [same] at taken
    next c rest same =>
      rw [same] at dropped
      exact dropped
  next bad =>
    rw [if_neg bad] at taken
    cases taken

theorem ignoreOne_shrinks : (ignoreOne stream).rest.length ≤ stream.rest.length := by
  unfold ignoreOne
  split
  · split
    · exact Nat.zero_le _
    next same => simp [same]
  · exact Nat.le_refl _

theorem ignorePast_shrinks (delimiter : Char) : (ignorePast delimiter stream).rest.length ≤ stream.rest.length := by
  have dropped := (List.dropWhile_suffix (· ≠ delimiter) (l := stream.rest)).length_le
  unfold ignorePast
  split
  · split
    · exact Nat.zero_le _
    next c rest same =>
      rw [same] at dropped
      exact Nat.le_of_succ_le dropped
  · exact Nat.le_refl _

theorem hexDigits_shrinks (text : List Char) : (hexDigits text).2.length ≤ text.length := by
  induction text with
  | nil => exact Nat.le_refl _
  | cons c rest ih =>
    unfold hexDigits
    split
    · exact Nat.le_refl _
    · exact Nat.le_succ_of_le ih

theorem hexSign_shrinks (text : List Char) : (hexSign text).2.length ≤ text.length := by
  unfold hexSign
  split <;> simp

theorem dropPrefix_shrinks (text : List Char) : (dropPrefix text).length ≤ text.length := by
  unfold dropPrefix
  split <;> simp [Nat.add_assoc]

theorem takeHex_shrinks (modulus : Nat) : (takeHex modulus stream).2.rest.length ≤ stream.rest.length := by
  have dropped := (List.dropWhile_suffix isSpace (l := stream.rest)).length_le
  have sign := hexSign_shrinks (stream.rest.dropWhile isSpace)
  have number := dropPrefix_shrinks (hexSign (stream.rest.dropWhile isSpace)).2
  have digits := hexDigits_shrinks (dropPrefix (hexSign (stream.rest.dropWhile isSpace)).2)
  have shorter := Nat.le_trans digits (Nat.le_trans number (Nat.le_trans sign dropped))
  unfold takeHex
  split
  · split
    · exact Nat.zero_le _
    · simp only
      split
      · exact shorter
      · split <;> exact shorter
  · exact Nat.le_refl _

end Shrinking

end InputStream

end Cpptrace.Library
