import Cpptrace.Formatting.Trace
import Cpptrace.Library.Numerals

/-! The second line of a frame under `break_before_filename`.

The columns in front of the symbol are counted beside the text. Of the text itself
a terminal does not show the escape sequences of the colors.
-/

set_option autoImplicit false

namespace Cpptrace.Formatting

open Cpptrace.Library

section Visible

/-- The characters that are shown, outside of an escape sequence or in one. A sequence ends with its `m`. -/
def visibleFrom : (escaped : Bool) → Text → Text
  | _, [] => []
  | true, c :: rest => visibleFrom (c ≠ 'm') rest
  | false, c :: rest => if c = '\x1b' then visibleFrom true rest else c :: visibleFrom false rest

def visible (text : Text) : Text := visibleFrom false text

@[simp]
theorem visible_nil : visible [] = [] := rfl

theorem visible_append {text : Text} (plain : '\x1b' ∉ text) (rest : Text) :
    visible (text ++ rest) = text ++ visible rest := by
  induction text with
  | nil => rfl
  | cons c text ih =>
    have other : c ≠ '\x1b' := fun same => plain (same ▸ List.mem_cons_self)
    have shown : visible (c :: (text ++ rest)) = c :: visible (text ++ rest) := if_neg other
    rw [List.cons_append, shown, ih fun member => plain (List.mem_cons_of_mem c member), List.cons_append]

theorem visible_of_plain {text : Text} (plain : '\x1b' ∉ text) : visible text = text := by
  have whole := visible_append plain []
  rwa [List.append_nil, visible_nil, List.append_nil] at whole

@[simp]
theorem visible_blue (color : Bool) (rest : Text) : visible (ColorSetting.blue color ++ rest) = visible rest := by
  cases color <;> rfl

@[simp]
theorem visible_reset (color : Bool) (rest : Text) : visible (ColorSetting.reset color ++ rest) = visible rest := by
  cases color <;> rfl

end Visible

section Numbers

theorem nDigits_eq (value : Nat) : nDigits value = (Nat.toDigits 10 value).length := by
  induction value using nDigits.induct with
  | case1 value small => rw [nDigits, if_pos small, Nat.toDigits_of_lt_base small, List.length_singleton]
  | case2 value large ih =>
    rw [nDigits, if_neg large, ih, Nat.toDigits_of_base_le (by decide) (Nat.le_of_not_lt large), List.length_append,
      List.length_singleton, Nat.add_comm]

theorem nDigits_mono {value largest : Nat} (below : value ≤ largest) : nDigits value ≤ nDigits largest := by
  have positive : 0 < (Nat.toDigits 10 largest).length := Nat.length_toDigits_pos
  have bound := (Nat.length_toDigits_le_iff (by decide) positive).mp (Nat.le_refl _)
  rw [nDigits_eq, nDigits_eq]
  exact (Nat.length_toDigits_le_iff (by decide) positive).mpr (Nat.lt_of_le_of_lt below bound)

theorem frameNumberWidth_eq {frames : List StacktraceFrame} (few : frames.length < 0x80000000)
    (some : 0 < frames.length) :
    frameNumberWidth frames = nDigits (frames.length - 1) := by
  have fits : (UInt32.ofNat frames.length).toNat = frames.length := Nat.mod_eq_of_lt (by simp; omega)
  have atLeast : (1 : UInt32) ≤ UInt32.ofNat frames.length := by
    rw [UInt32.le_iff_toNat_le, fits]
    exact some
  rw [frameNumberWidth, UInt32.toNat_sub_of_le _ _ atLeast, fits]
  rfl

theorem counter_fits {frames : List StacktraceFrame} (few : frames.length < 0x80000000) {counter : Nat}
    (inside : counter < frames.length) : (Nat.toDigits 10 counter).length ≤ frameNumberWidth frames := by
  rw [frameNumberWidth_eq few (by omega), ← nDigits_eq]
  exact nDigits_mono (by omega)

end Numbers

section Columns

variable (renderers : Renderers) (options : Options)

theorem notMem_toDigits {base value : Nat} (large : 1 < base) {c : Char}
    (other : ∀ digit < base, c ≠ Nat.digitChar digit) :
    c ∉ Nat.toDigits base value := fun member =>
  have ⟨digit, inBase, same⟩ := exists_of_mem_toDigits large member
  other digit inBase same

/-- What `write_trace` and `write_frame` put in front of the symbol. -/
def beforeSymbol (width counter : Nat) (frame : StacktraceFrame) (color : Bool) : Text :=
  (writeFrameNumber width counter).1 ++ (writeAddress options frame color).1
    ++ (if frame.isInline || options.addresses ≠ .none then [' '] else [])

theorem visible_writeAddress (frame : StacktraceFrame) (color : Bool) {rest : Text} (plain : '\x1b' ∉ rest) :
    (visible ((writeAddress options frame color).1 ++ rest)).length =
      (writeAddress options frame color).2 + rest.length := by
  rw [writeAddress]
  split
  · -- the marker of an inline frame has no color
    have marker : '\x1b' ∉ alignLeft (addressWidth + 2) "(inlined)".toList := by decide
    rw [visible_append marker, visible_of_plain plain, List.length_append, length_alignLeft,
      Nat.max_eq_left (by decide)]
  · split
    · rw [List.nil_append, visible_of_plain plain, Nat.zero_add]
    · have digits (address : FramePtr) : (Nat.toDigits 16 address.toNat).length ≤ addressWidth :=
        (Nat.length_toDigits_le_iff (by decide) (by decide)).mpr address.toNat_lt
      have unescaped (address : FramePtr) :
          '\x1b' ∉ Nat.toDigits 16 address.toNat := notMem_toDigits (by decide) (by decide)
      have padded (address : FramePtr) : '\x1b' ∉ alignRight addressWidth '0' (Nat.toDigits 16 address.toNat) := by
        simp [alignRight, unescaped]
      have mark : '\x1b' ∉ "0x".toList := by decide
      simp only [List.append_assoc, visible_blue]
      rw [visible_append mark, visible_append (padded _), visible_reset, visible_of_plain plain]
      rw [List.length_append, List.length_append, length_alignRight, Nat.max_eq_left (digits _)]
      show 2 + (addressWidth + rest.length) = addressWidth + 2 + rest.length
      omega

/-- The column that is counted is the number of characters that are shown. -/
theorem length_visible_beforeSymbol {width counter : Nat} (fits : (Nat.toDigits 10 counter).length ≤ width)
    (frame : StacktraceFrame) (color : Bool) :
    (visible (beforeSymbol options width counter frame color)).length =
      (writeFrameNumber width counter).2 + (writeAddress options frame color).2 +
        (if frame.isInline || options.addresses ≠ .none then 1 else 0) := by
  have digits : '\x1b' ∉ Nat.toDigits 10 counter := notMem_toDigits (by decide) (by decide)
  have number : '\x1b' ∉ (writeFrameNumber width counter).1 := by simp [writeFrameNumber, alignLeft, digits]
  have blank : '\x1b' ∉ (if frame.isInline || options.addresses ≠ .none then [' '] else []) := by
    split <;> decide
  have columns : (writeFrameNumber width counter).1.length = (writeFrameNumber width counter).2 := by
    simp only [writeFrameNumber, List.length_append, length_alignLeft, Nat.max_eq_left fits]
    show 1 + width + 1 = 2 + width
    omega
  rw [beforeSymbol, List.append_assoc, visible_append number, List.length_append, columns,
    visible_writeAddress options frame color blank, ← Nat.add_assoc]
  split <;> rfl

theorem newline_notMem_beforeSymbol (width counter : Nat) (frame : StacktraceFrame) (color : Bool) :
    '\n' ∉ beforeSymbol options width counter frame color := by
  have decimal : '\n' ∉ Nat.toDigits 10 counter := notMem_toDigits (by decide) (by decide)
  have hex (value : Nat) : '\n' ∉ Nat.toDigits 16 value := notMem_toDigits (by decide) (by decide)
  have colors : '\n' ∉ ColorSetting.blue color ∧ '\n' ∉ ColorSetting.reset color := by cases color <;> decide
  have number : '\n' ∉ (writeFrameNumber width counter).1 := by simp [writeFrameNumber, alignLeft, decimal]
  have address : '\n' ∉ (writeAddress options frame color).1 := by
    rw [writeAddress]
    split
    · decide
    · split <;> simp [alignRight, hex, colors]
  simp [beforeSymbol, number, address]

/-- A frame with symbol and filename, when the line is broken between them. -/
theorem writeFrame_broken (breaks : options.breakBeforeFilename = true) (frame : StacktraceFrame) (color : Bool)
    (col : Nat)
    (symbol : frame.symbol ≠ []) (filename : frame.filename ≠ []) :
    writeFrame renderers options frame color col =
      (writeAddress options frame color).1 ++ (if frame.isInline || options.addresses ≠ .none then [' '] else [])
        ++ writeSymbol renderers options frame color
        ++ '\n' :: List.replicate
          (col + (writeAddress options frame color).2 +
            (if frame.isInline || options.addresses ≠ .none then 1 else 0)) ' '
        ++ writeSourceLocation options frame color := by
  simp only [writeFrame, if_pos symbol, if_pos (And.intro symbol filename), if_pos breaks, if_pos filename]

theorem rendering_broken (breaks : options.breakBeforeFilename = true) (color : Bool) {width counter : Nat}
    (fits : (Nat.toDigits 10 counter).length ≤ width) (index : Nat) (frame : StacktraceFrame)
    (shown : isFilteredOut options index frame = false) (symbol : (transformed options index frame).symbol ≠ [])
    (filename : (transformed options index frame).filename ≠ []) :
    rendering renderers options color width counter index frame =
      let before := beforeSymbol options width counter (transformed options index frame) color
      before ++ writeSymbol renderers options (transformed options index frame) color
        ++ '\n' :: List.replicate (visible before).length ' '
        ++ writeSourceLocation options (transformed options index frame) color
        ++ writeSnippet renderers options (transformed options index frame) color := by
  have columns := length_visible_beforeSymbol options fits (transformed options index frame) color
  simp only [rendering, shown, Bool.false_eq_true, if_false]
  rw [writeFrame_broken renderers options breaks _ _ _ symbol filename, columns, beforeSymbol]
  simp only [List.append_assoc]

/-- A frame of a trace as it is written, with its number filled up to a width. -/
def Numbered (width counter : Nat) (text : Text) : Prop :=
  ∃ rest, text = '#' :: (alignLeft width (Nat.toDigits 10 counter) ++ ' ' :: rest) ∧
    (alignLeft width (Nat.toDigits 10 counter)).length = width

theorem numbered_rendering (color : Bool) {width counter : Nat} (fits : (Nat.toDigits 10 counter).length ≤ width)
    (index : Nat) (frame : StacktraceFrame) :
    Numbered width counter (rendering renderers options color width counter index frame) := by
  have number (body : Text) : (writeFrameNumber width counter).1 ++ body =
      '#' :: (alignLeft width (Nat.toDigits 10 counter) ++ ' ' :: body) := by
    simp [writeFrameNumber]
  exact ⟨_, number _, (length_alignLeft ..).trans (Nat.max_eq_left fits)⟩

/-- Every number of a trace takes the same width. Under `break_before_filename` a location
stands below the symbol: as far right as the characters shown in front of it reach. -/
theorem location_below_symbol (frames : List StacktraceFrame) (color : Bool) (few : frames.length < 0x80000000)
    (breaks : options.breakBeforeFilename = true) :
    let start := getTraceStart options frames
    let entries := traceEntries renderers options frames color
    writeTrace renderers options frames color =
        writeHeader options ++ (if frames.isEmpty then "<empty trace>".toList else writeSeparated "\n".toList entries) ∧
      ∀ counter text, entries[counter]? = some (some text) →
        Numbered (frameNumberWidth frames) counter text ∧
        ∀ frame, frames[start + counter]? = some frame → isFilteredOut options (start + counter) frame = false →
          let shown := transformed options (start + counter) frame
          shown.symbol ≠ [] → shown.filename ≠ [] →
            ∃ before, '\n' ∉ before ∧
              text = before ++ writeSymbol renderers options shown color
                ++ '\n' :: List.replicate (visible before).length ' '
                ++ writeSourceLocation options shown color ++ writeSnippet renderers options shown color := by
  intro start entries
  refine ⟨writeTrace_eq renderers options frames color, fun counter text listed => ?_⟩
  rw [traceEntries_getElem?] at listed
  obtain ⟨frame, found, written⟩ := Option.map_eq_some_iff.mp listed
  have inside := (List.getElem?_eq_some_iff.mp found).1
  have fits : (Nat.toDigits 10 counter).length ≤ frameNumberWidth frames := counter_fits few (by omega)
  -- what is written is not hidden, and stands behind its own counter
  have text_eq : rendering renderers options color (frameNumberWidth frames) counter (start + counter) frame =
      text := by
    rw [entryOf] at written
    split at written
    · cases written
    · simpa [start] using written
  rw [← text_eq]
  refine ⟨numbered_rendering renderers options color fits _ frame, fun frame' found' shown symbol filename => ?_⟩
  obtain rfl : frame = frame' := Option.some.inj (found.symm.trans found')
  exact ⟨_, newline_notMem_beforeSymbol options _ _ _ _,
    rendering_broken renderers options breaks color fits _ frame shown symbol filename⟩

end Columns

def brokenLines : Options :=
  { header := [], addresses := .object, breakBeforeFilename := true }

def inlineFrame : StacktraceFrame :=
  ⟨1, 1, ⟨7⟩, .null, "a.cpp".toList, "f".toList, true⟩

theorem location_below_symbol_inline :
    ∃ before, '\n' ∉ before ∧ "#0 (inlined)          in f\n                      at a.cpp:7".toList =
      before ++ writeSymbol plainRenderers brokenLines inlineFrame false
        ++ '\n' :: List.replicate (visible before).length ' '
        ++ writeSourceLocation brokenLines inlineFrame false ++ writeSnippet plainRenderers brokenLines inlineFrame
          false := by
  have width : frameNumberWidth [inlineFrame] = 1 := by
    simp [frameNumberWidth, nDigits]
  have entry : (traceEntries plainRenderers brokenLines [inlineFrame] false)[0]? =
      some (some "#0 (inlined)          in f\n                      at a.cpp:7".toList) := by
    simp only [traceEntries, width]
    decide
  obtain ⟨-, located⟩ := location_below_symbol plainRenderers brokenLines [inlineFrame] false (by decide) rfl
  exact (located 0 _ entry).2 inlineFrame rfl rfl (by decide) (by decide)

end Cpptrace.Formatting
