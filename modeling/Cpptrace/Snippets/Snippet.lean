import Cpptrace.Formatting.Frame
import Cpptrace.Microfmt.Format
import Mathlib.Data.List.Range

/-! `get_snippet`: the lines of a file around one of them.

The line table counts from one, with an entry in front that stands for no line; the
vector of collected lines counts from zero. A read outside one of them gives no value.
-/

set_option autoImplicit false

namespace Cpptrace.Snippets

open Formatting

section Manager

/-- `line_range`, with the end one behind the last character. -/
structure LineRange where
  first : Nat
  last : Nat
  deriving DecidableEq, Repr

def maxSize : Nat := 1024 * 1024 * 10

/-- The loop of `build_line_table`, from a line that starts at `pos` and of which the characters up to
`cursor` are no newline. -/
def lineRanges (contents : Text) : (pos cursor : Nat) → (rest : Text) → List LineRange
  | pos, _, [] => [⟨pos, contents.length⟩]
  | pos, cursor, c :: rest =>
      if c = '\n' then
        let endPos := if 0 < cursor ∧ contents[cursor - 1]? = some '\r' then cursor - 1 else cursor
        ⟨pos, endPos⟩ :: lineRanges contents (cursor + 1) (cursor + 1) rest
      else lineRanges contents pos (cursor + 1) rest

def buildLineTable (contents : Text) : List LineRange := ⟨0, 0⟩ :: lineRanges contents 0 0 contents

structure SnippetManager where
  loadedContents : Bool
  contents : Text
  lineTable : List LineRange
  deriving DecidableEq, Repr

namespace SnippetManager

def new (file : Option Text) : SnippetManager :=
  match file with
  | none => ⟨false, [], []⟩
  | some contents => if maxSize < contents.length then ⟨false, [], []⟩ else ⟨true, contents, buildLineTable contents⟩

def getLine (manager : SnippetManager) (line : Nat) : Option Text :=
  if !manager.loadedContents || manager.lineTable.length < line then some []
  else do
    let range ← manager.lineTable[line]?
    return (manager.contents.drop range.first).take (range.last - range.first)

def numLines (manager : SnippetManager) : Nat := manager.lineTable.length

end SnippetManager

end Manager

section Snippets

structure SnippetContext where
  originalBegin : Nat
  firstLine : Nat
  lastLine : Nat
  lines : List Text
  deriving DecidableEq, Repr

/-- The loop that trims blank lines in front; it has no more turns than there are lines up to the target. -/
def trimFront (lines : List Text) (originalBegin targetLine : Nat) : (turns : Nat) → (first : Nat) → Option Nat
  | 0, first => some first
  | turns + 1, first =>
      if first < targetLine then do
        let line ← lines[first - originalBegin]?
        if line.isEmpty then trimFront lines originalBegin targetLine turns (first + 1) else some first
      else some first

def trimBack (lines : List Text) (originalBegin targetLine : Nat) : (turns : Nat) → (last : Nat) → Option Nat
  | 0, last => some last
  | turns + 1, last =>
      if targetLine < last then do
        let line ← lines[last - originalBegin]?
        if line.isEmpty then trimBack lines originalBegin targetLine turns (last - 1) else some last
      else some last

def lineNumbers (first last : Nat) : List Nat := List.range' first (last + 1 - first)

def firstOf (targetLine contextSize : Nat) : Nat :=
  if targetLine ≤ (contextSize + 1) % sizeModulus then 1 else targetLine - contextSize

def lastOf (manager : SnippetManager) (targetLine contextSize : Nat) : Nat :=
  min ((targetLine + contextSize) % sizeModulus) (manager.numLines - 1)

/-- `get_lines`: a manager that is not loaded gives no context. -/
def getLines (manager : SnippetManager) (targetLine contextSize : Nat) : Option (Option SnippetContext) :=
  if !manager.loadedContents then some none
  else do
    let originalBegin := firstOf targetLine contextSize
    let last := lastOf manager targetLine contextSize
    let lines ← (lineNumbers originalBegin last).mapM manager.getLine
    let first ← trimFront lines originalBegin targetLine (targetLine - originalBegin) originalBegin
    let last ← trimBack lines originalBegin targetLine (last - targetLine) last
    return some ⟨originalBegin, first, last, lines⟩

def marginWidth : Nat := 8

section Writing

variable (targetLine : Nat) (column : Nullable) (color : Bool)

def writeLineNumber (line : Nat) : Text :=
  let lineStr := Nat.toDigits 10 line
  if line = targetLine then
    let lineWidth := lineStr.length + 3
    ColorSetting.yellow color ++ alignRight (marginWidth - lineWidth) ' ' [] ++ " > ".toList ++ lineStr ++ ": ".toList
      ++ ColorSetting.reset color
  else alignRight marginWidth ' ' lineStr ++ ": ".toList

def writeCarrot (column : Nat) : Text :=
  (Microfmt.format ('\n' :: "\x7b>\x7b\x7d\x7d".toList)
      [.uint64 (.ofNat (marginWidth + 2 + column - 1)), .string []]).text
    ++ ColorSetting.yellow color ++ "^".toList ++ ColorSetting.reset color

def writeLine (context : SnippetContext) (line : Nat) : Option Text := do
  let text ← context.lines[line - context.originalBegin]?
  return writeLineNumber targetLine color line ++ text
    ++ (if line = targetLine && column.hasValue then writeCarrot color column.rawValue.toNat else [])

/-- One turn of the loop of `get_snippet`. -/
def writeTurn (context : SnippetContext) (line : Nat) : Option Text := do
  let text ← writeLine targetLine column color context line
  return text ++ (if line ≠ context.lastLine then "\n".toList else [])

end Writing

def getSnippet (manager : SnippetManager) (targetLine : Nat) (column : Nullable) (contextSize : Nat) (color : Bool) :
    Option Text := do
  match ← getLines manager targetLine contextSize with
  | none => return []
  | some context =>
    let turns ← (lineNumbers context.firstLine context.lastLine).mapM (writeTurn targetLine column color context)
    return turns.flatten

end Snippets

end Cpptrace.Snippets
