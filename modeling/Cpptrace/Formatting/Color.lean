import Cpptrace.Formatting.Indent
import Cpptrace.Snippets.Snippet

/-! Colors as a decoration of what is formatted without them.

Each color is followed by its reset before another one begins, whatever the options
are and whichever frames are left out.
-/

set_option autoImplicit false

namespace Cpptrace.Formatting

open Cpptrace.Snippets

/-- The colored text is the plain one, with some of its parts between a color and a reset. -/
inductive Colored : Text → Text → Prop where
  | plain (text : Text) : Colored text text
  | painted {code : String} (known : code ∈ ["[32m", "[33m", "[34m"]) (text : Text) :
      Colored text (ColorSetting.escape true code ++ text ++ ColorSetting.reset true)
  | append {first second first' second' : Text} (left : Colored first first') (right : Colored second second') :
      Colored (first ++ second) (first' ++ second')

namespace Colored

theorem paint {code : String} (known : code ∈ ["[32m", "[33m", "[34m"]) (text : Text) :
    Colored (ColorSetting.escape false code ++ text ++ ColorSetting.reset false)
      (ColorSetting.escape true code ++ text ++ ColorSetting.reset true) := by
  have bare : ColorSetting.escape false code ++ text ++ ColorSetting.reset false = text := by
    simp [ColorSetting.escape, ColorSetting.reset]
  rw [bare]
  exact .painted known text

theorem labelled {code : String} (known : code ∈ ["[32m", "[33m", "[34m"]) (label text : Text) :
    Colored (label ++ ColorSetting.escape false code ++ text ++ ColorSetting.reset false)
      (label ++ ColorSetting.escape true code ++ text ++ ColorSetting.reset true) := by
  simp only [List.append_assoc label]
  exact .append (.plain label) (.paint known text)

theorem ite {condition : Prop} [Decidable condition] {first second first' second' : Text}
    (left : Colored first first') (right : Colored second second') :
    Colored (if condition then first else second) (if condition then first' else second') := by
  split
  · exact left
  · exact right

/-- A terminal shows the plain text, with nothing left of a color at its end. -/
theorem visible_eq {text text' : Text} (colored : Colored text text') (plain : '\x1b' ∉ text) (rest : Text) :
    visible (text' ++ rest) = text ++ visible rest := by
  induction colored generalizing rest with
  | plain text => exact visible_append plain rest
  | @painted code known text =>
    rw [List.append_assoc, List.append_assoc]
    -- a code ends with the first `m` behind its escape character
    have opened : ∀ after, visible (ColorSetting.escape true code ++ after) = visible after := by
      simp only [List.mem_cons, List.not_mem_nil, or_false] at known
      rcases known with rfl | rfl | rfl <;> exact fun _ => rfl
    rw [opened, visible_append plain, visible_reset]
  | append _ _ left right =>
    rw [List.mem_append, not_or] at plain
    rw [List.append_assoc, left plain.1, right plain.2, List.append_assoc]

end Colored

section Frames

variable (renderers : Renderers) (options : Options) (frame : StacktraceFrame)

theorem writeAddress_colored : Colored (writeAddress options frame false).1 (writeAddress options frame true).1 := by
  rw [writeAddress, writeAddress]
  split
  · exact .plain _
  · split
    · exact .plain _
    next address =>
      dsimp only
      rw [ColorSetting.blue, ColorSetting.blue, List.append_assoc (ColorSetting.escape _ _),
        List.append_assoc (ColorSetting.escape _ _)]
      exact .paint (by decide : "[34m" ∈ _) _

theorem writeAddress_width (color : Bool) :
    (writeAddress options frame color).2 = (writeAddress options frame false).2 := by
  rw [writeAddress, writeAddress]
  split
  · rfl
  · split <;> rfl

theorem writeSymbol_colored :
    Colored (writeSymbol renderers options frame false) (writeSymbol renderers options frame true) := by
  rw [writeSymbol, writeSymbol]
  exact .labelled (by decide : "[33m" ∈ _) _ _

theorem writeLocationPart_colored (value : UInt32) :
    Colored (writeLocationPart value false) (writeLocationPart value true) := by
  rw [writeLocationPart, writeLocationPart]
  exact .labelled (by decide : "[34m" ∈ _) _ _

theorem writeSourceLocation_colored :
    Colored (writeSourceLocation options frame false) (writeSourceLocation options frame true) := by
  refine .append (.labelled (by decide : "[32m" ∈ _) _ _) (.ite (.append (writeLocationPart_colored _) ?_) (.plain []))
  exact .ite (writeLocationPart_colored _) (.plain [])

theorem writeFrame_colored (col : Nat) :
    Colored (writeFrame renderers options frame false col) (writeFrame renderers options frame true col) := by
  simp only [writeFrame, writeAddress_width options frame true]
  refine .append (.append (.append (.append (writeAddress_colored options frame) (.plain _)) ?_) (.plain _)) ?_
  · exact .ite (writeSymbol_colored renderers options frame) (.plain [])
  · exact .ite (writeSourceLocation_colored options frame) (.plain [])

end Frames

section SourceSnippets

def ColoredLine (text text' : Text) : Prop := Colored text text' ∧ (text = [] ↔ text' = [])

namespace ColoredLine

theorem refl (text : Text) : ColoredLine text text := ⟨.plain text, Iff.rfl⟩

theorem append {first second first' second' : Text} (left : ColoredLine first first')
    (right : ColoredLine second second') : ColoredLine (first ++ second) (first' ++ second') :=
  ⟨.append left.1 right.1, by rw [List.append_eq_nil_iff, List.append_eq_nil_iff, left.2, right.2]⟩

theorem ite {condition : Prop} [Decidable condition] {text text' : Text} (line : ColoredLine text text') :
    ColoredLine (if condition then text else []) (if condition then text' else []) := by
  split
  · exact line
  · exact .refl []

end ColoredLine

theorem coloredLine_flatten {Item : Type} {plain colored : Item → Option Text} {items : List Item}
    (each : ∀ item ∈ items, Option.Rel ColoredLine (plain item) (colored item)) :
    Option.Rel ColoredLine ((items.mapM plain).map List.flatten) ((items.mapM colored).map List.flatten) := by
  induction items with
  | nil => exact .some (.refl [])
  | cons item rest ih =>
    have first := each item List.mem_cons_self
    have others := ih fun other member => each other (List.mem_cons_of_mem item member)
    rw [List.mapM_cons, List.mapM_cons]
    generalize plain item = one, colored item = two at first
    generalize rest.mapM plain = ones, rest.mapM colored = twos at others
    cases first with
    | none => exact .none
    | some written =>
      cases ones with
      | none =>
        cases twos with
        | none => exact .none
        | some => cases others
      | some =>
        cases twos with
        | none => cases others
        | some =>
          cases others with
          | some after => exact .some (written.append after)

variable (targetLine : Nat) (column : Nullable) (context : SnippetContext)

theorem writeLineNumber_colored (line : Nat) :
    ColoredLine (writeLineNumber targetLine false line) (writeLineNumber targetLine true line) := by
  rw [writeLineNumber, writeLineNumber]
  refine ⟨.ite ?_ (.plain _), ?_⟩
  · simp only [ColorSetting.yellow, List.append_assoc (ColorSetting.escape _ _)]
    exact .paint (by decide : "[33m" ∈ _) _
  · split <;> simp

theorem writeCarrot_colored (place : Nat) : ColoredLine (writeCarrot false place) (writeCarrot true place) := by
  refine ⟨?_, by simp [writeCarrot]⟩
  exact .labelled (by decide : "[33m" ∈ _) _ _

theorem writeTurn_colored (line : Nat) :
    Option.Rel ColoredLine (writeTurn targetLine column false context line)
      (writeTurn targetLine column true context line) := by
  rw [writeTurn, writeTurn, writeLine, writeLine]
  cases context.lines[line - context.originalBegin]? with
  | none => exact .none
  | some text =>
    have number := writeLineNumber_colored targetLine line
    exact .some (((number.append (.refl text)).append (.ite (writeCarrot_colored _))).append (.refl _))

/-- The same lines are read in either case, and no snippet is there in one of them only. -/
theorem getSnippet_colored (manager : SnippetManager) (contextSize : Nat) :
    Option.Rel ColoredLine (getSnippet manager targetLine column contextSize false)
      (getSnippet manager targetLine column contextSize true) := by
  rw [getSnippet, getSnippet]
  cases getLines manager targetLine contextSize with
  | none => exact .none
  | some found =>
    cases found with
    | none => exact .some (.refl [])
    | some context =>
      have lines := coloredLine_flatten fun line (_ : line ∈ lineNumbers context.firstLine context.lastLine) =>
        writeTurn_colored targetLine column context line
      rwa [Option.map_eq_bind, Option.map_eq_bind] at lines

end SourceSnippets

section Traces

variable (managerFor : Text → SnippetManager) (renderers : Renderers) (options : Options)

/-- The snippet of a frame, where one is asked for, is what is read of its file. -/
def SnippetRead (frame : StacktraceFrame) : Prop :=
  frame.line.hasValue && !frame.filename.isEmpty && options.snippets → ∀ color,
    getSnippet (managerFor frame.filename) frame.line.rawValue.toNat frame.column
        (options.contextLines % sizeModulus).toNat color =
      some (renderers.getSnippet frame.filename frame.line.rawValue frame.column options.contextLines color)

theorem writeSnippet_colored (frame : StacktraceFrame) (read : SnippetRead managerFor renderers options frame) :
    Colored (writeSnippet renderers options frame false) (writeSnippet renderers options frame true) := by
  rw [writeSnippet, writeSnippet]
  split
  next asked =>
    have lines := getSnippet_colored frame.line.rawValue.toNat frame.column (managerFor frame.filename)
      (options.contextLines % sizeModulus).toNat
    rw [read asked false, read asked true] at lines
    cases lines with
    | some line =>
      obtain ⟨colored, empty⟩ := line
      -- the newline in front of a snippet is there in both forms or in neither
      have same := Bool.eq_iff_iff.mpr (List.isEmpty_iff.trans (empty.trans List.isEmpty_iff.symm))
      dsimp only
      rw [same]
      exact .ite (.plain []) (.append (.plain ['\n']) colored)
  · exact .plain []

theorem rendering_colored (width counter index : Nat) (frame : StacktraceFrame)
    (read : isFilteredOut options index frame = false →
      SnippetRead managerFor renderers options (transformed options index frame)) :
    Colored (rendering renderers options false width counter index frame)
      (rendering renderers options true width counter index frame) := by
  refine .append (.plain _) ?_
  split
  · exact .plain _
  next shown =>
    rw [Bool.not_eq_true] at shown
    exact .append (writeFrame_colored renderers options _ _)
      (writeSnippet_colored managerFor renderers options _ (read shown))

theorem writeFrames_colored (size width i counter : Nat) (frames : List StacktraceFrame)
    (read : ∀ index frame, frames[index]? = some frame → isFilteredOut options (i + index) frame = false →
      SnippetRead managerFor renderers options (transformed options (i + index) frame)) :
    Colored (writeFrames renderers options false size width i counter frames)
      (writeFrames renderers options true size width i counter frames) := by
  induction frames generalizing i counter with
  | nil => exact .plain []
  | cons frame rest ih =>
    have others := ih (i + 1) (counter + 1) fun index later found => by
      rw [Nat.add_assoc, Nat.add_comm 1 index]
      exact read (index + 1) later found
    rw [writeFrames, writeFrames]
    split
    -- a hidden frame is so with colors and without
    · exact others
    · exact .append
        (.append (rendering_colored managerFor renderers options _ _ _ _ (read 0 frame rfl)) (.plain _)) others

/-- Colors change nothing of a trace but its colors: what is written is the plain trace, with a color and its
reset around some of its parts, and a terminal shows the plain one. -/
theorem format_colored (frames : List StacktraceFrame) (color : Option Bool)
    (read : ∀ index frame, getTraceStart options frames ≤ index → frames[index]? = some frame →
      isFilteredOut options index frame = false →
        SnippetRead managerFor renderers options (transformed options index frame)) :
    let plain := writeTrace renderers options frames false
    Colored plain (format renderers options frames color) ∧
      ('\x1b' ∉ plain → ∀ rest, visible (format renderers options frames color ++ rest) = plain ++ visible rest) := by
  intro plain
  have colored : Colored plain (format renderers options frames color) := by
    rw [format]
    cases shouldDoColor options (some (color.getD (options.color == .always))) with
    | false => exact .plain plain
    | true =>
      refine .append (.plain _) (.ite (.plain _) ?_)
      refine writeFrames_colored managerFor renderers options _ _ _ _ _ fun index frame found => ?_
      rw [List.getElem?_drop] at found
      exact read _ frame (Nat.le_add_right _ _) found
  exact ⟨colored, fun bare rest => colored.visible_eq bare rest⟩

end Traces

/-- Options for one line of a file, in color. -/
def colorfulOptions : Options :=
  { header := [], color := .always, addresses := .none, snippets := true, contextLines := 0 }

def oneLine : SnippetManager := .new (some "f();".toList)

def oneLineRenderers : Renderers where
  pruneSymbol := id
  prettifySymbol := id
  getSnippet _ line column contextLines color :=
    (getSnippet oneLine line.toNat column (contextLines % sizeModulus).toNat color).getD []

def calledFrame : StacktraceFrame :=
  ⟨1, 1, ⟨1⟩, .null, "a.cpp".toList, "f".toList, false⟩

theorem format_colored_at_called :
    visible (format oneLineRenderers colorfulOptions [calledFrame] none) =
      "#0 in f at a.cpp:1\n     > 1: f();".toList := by
  have width : frameNumberWidth [calledFrame] = 1 := by
    simp [frameNumberWidth, nDigits]
  have plain : writeTrace oneLineRenderers colorfulOptions [calledFrame] false =
      "#0 in f at a.cpp:1\n     > 1: f();".toList := by
    simp only [writeTrace, width]
    decide
  have read : SnippetRead (fun _ => oneLine) oneLineRenderers colorfulOptions calledFrame := fun _ color => by
    cases color <;> decide
  have colored := format_colored (fun _ => oneLine) oneLineRenderers colorfulOptions [calledFrame] none
    fun index frame _ found _ => by
      obtain rfl : calledFrame = frame := by
        cases index with
        | zero => exact Option.some.inj found
        | succ index => cases found
      exact read
  have shown := colored.2 (by rw [plain]; decide) []
  rwa [List.append_nil, visible_nil, List.append_nil, plain] at shown

end Cpptrace.Formatting
