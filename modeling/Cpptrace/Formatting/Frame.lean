import Cpptrace.Basic

/-! What `formatter` writes for one frame.

A writer returns the text that it puts on the stream and, where the code does,
the number of columns it took. Streams are not terminals, as for `format`. What
rewrites symbols and reads source files stands outside.
-/

set_option autoImplicit false

namespace Cpptrace.Formatting

inductive ColorMode where
  | always
  | none
  | automatic
  deriving DecidableEq, Repr

inductive AddressMode where
  | raw
  | object
  | none
  deriving DecidableEq, Repr

inductive PathMode where
  | full
  | basename
  deriving DecidableEq, Repr

inductive SymbolMode where
  | full
  | pretty
  | pruned
  deriving DecidableEq, Repr

/-- The options of a `formatter`. A filter or a transform may keep state from call
to call, so it is also given the index of the frame. -/
structure Options where
  header : Text := "Stack trace (most recent call first):".toList
  color : ColorMode := .automatic
  addresses : AddressMode := .raw
  paths : PathMode := .full
  snippets : Bool := false
  breakBeforeFilename : Bool := false
  contextLines : Int := 2
  columns : Bool := true
  symbols : SymbolMode := .full
  showFilteredFrames : Bool := true
  hideExceptionMachinery : Bool := true
  filter : Option (Nat → StacktraceFrame → Bool) := none
  transform : Option (Nat → StacktraceFrame → StacktraceFrame) := none

/-- `prune_symbol`, `prettify_symbol` and `get_snippet`. -/
structure Renderers where
  pruneSymbol : Text → Text
  prettifySymbol : Text → Text
  getSnippet : Text → UInt32 → Nullable → Int → Bool → Text

def alignLeft (width : Nat) (value : Text) : Text :=
  value ++ List.replicate (width - value.length) ' '

def alignRight (width : Nat) (fill : Char) (value : Text) : Text :=
  List.replicate (width - value.length) fill ++ value

theorem length_alignLeft (width : Nat) (value : Text) : (alignLeft width value).length = max width value.length := by
  rw [alignLeft, List.length_append, List.length_replicate]
  omega

theorem length_alignRight (width : Nat) (fill : Char) (value : Text) :
    (alignRight width fill value).length = max width value.length := by
  rw [alignRight, List.length_append, List.length_replicate]
  omega

namespace ColorSetting

def escape (color : Bool) (code : String) : Text :=
  if color then '\x1b' :: code.toList else []

def reset (color : Bool) : Text := escape color "[0m"

def green (color : Bool) : Text := escape color "[32m"

def yellow (color : Bool) : Text := escape color "[33m"

def blue (color : Bool) : Text := escape color "[34m"

end ColorSetting

/-- `should_do_color` for a stream that is not a terminal. -/
def shouldDoColor (options : Options) (colorOverride : Option Bool) : Bool :=
  options.color == .always || colorOverride.getD false

/-- `basename`, which takes either slash for a separator. -/
def basename (path : Text) : Text :=
  (path.reverse.takeWhile fun c => c != '/' && c != '\\').reverse

section

variable (renderers : Renderers) (options : Options)

def addressWidth : Nat := 2 * 8

def writeAddress (frame : StacktraceFrame) (color : Bool) : Text × Nat :=
  if frame.isInline then (alignLeft (addressWidth + 2) "(inlined)".toList, addressWidth + 2)
  else
    match options.addresses with
    | .none => ([], 0)
    | mode =>
        let address := if mode = .raw then frame.rawAddress else frame.objectAddress
        (ColorSetting.blue color ++ "0x".toList ++ alignRight addressWidth '0' (Nat.toDigits 16 address.toNat)
          ++ ColorSetting.reset color, addressWidth + 2)

def writeSymbol (frame : StacktraceFrame) (color : Bool) : Text :=
  let symbol :=
    match options.symbols with
    | .full => frame.symbol
    | .pruned => renderers.pruneSymbol frame.symbol
    | .pretty => renderers.prettifySymbol frame.symbol
  "in ".toList ++ ColorSetting.yellow color ++ symbol ++ ColorSetting.reset color

def writeLocationPart (value : UInt32) (color : Bool) : Text :=
  ":".toList ++ ColorSetting.blue color ++ Nat.toDigits 10 value.toNat ++ ColorSetting.reset color

def writeSourceLocation (frame : StacktraceFrame) (color : Bool) : Text :=
  "at ".toList ++ ColorSetting.green color
    ++ (if options.paths = .full then frame.filename else basename frame.filename)
    ++ ColorSetting.reset color
    ++ (if frame.line.hasValue then
          writeLocationPart frame.line.rawValue color
            ++ (if frame.column.hasValue && options.columns then writeLocationPart frame.column.rawValue color
                else [])
        else [])

def writeFrame (frame : StacktraceFrame) (color : Bool) (col : Nat) : Text :=
  let (address, width) := writeAddress options frame color
  let spaced := frame.isInline || options.addresses ≠ .none
  let col := col + width + (if spaced then 1 else 0)
  address
    ++ (if spaced then [' '] else [])
    ++ (if frame.symbol ≠ [] then writeSymbol renderers options frame color else [])
    ++ (if frame.symbol ≠ [] ∧ frame.filename ≠ [] then
          if options.breakBeforeFilename then '\n' :: List.replicate col ' ' else [' ']
        else [])
    ++ (if frame.filename ≠ [] then writeSourceLocation options frame color else [])

end

end Cpptrace.Formatting
