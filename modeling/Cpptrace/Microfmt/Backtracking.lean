import Cpptrace.Microfmt.Format

/-! Brace groups that are not fields.

A group that fails to parse is gone back on: its brace is written and the text
behind the brace is read again. The parse has then done what it did to the
arguments, so a group that took its width from an argument has lost it for the
fields behind it.
-/

set_option autoImplicit false

namespace Cpptrace.Microfmt

open Library

section Widths

def afterAlignment : Text → Text
  | [] => []
  | c :: rest => if c = '<' ∨ c = '>' then rest else c :: rest

def widthNumber (text : Text) : Int :=
  if text.head?.any Char.isDigit then (readDigits text 0 false).2.1 else -1

def behindNumber (text : Text) : Text := (readDigits text 0 false).1

/-- A group with this text takes its width from an argument. -/
def TakesWidth (behind : Text) : Prop :=
  widthNumber (afterAlignment behind) = -1 ∧ (behindNumber (afterAlignment behind)).take 2 = ['{', '}']

/-- The number in a group does not fit an `int`. -/
def Overflows (behind : Text) : Prop := (readDigits (afterAlignment behind) 0 false).2.2 = true

instance (behind : Text) : Decidable (TakesWidth behind) := inferInstanceAs (Decidable (_ ∧ _))

instance (behind : Text) : Decidable (Overflows behind) := inferInstanceAs (Decidable (_ = _))

end Widths

section Parts

/-- An overflow on the way to a number is added to those before it. -/
theorem readDigits_undefined (text : Text) (num : Int) (undefined more : Bool) :
    readDigits text num (undefined || more) =
      ((readDigits text num more).1, (readDigits text num more).2.1, undefined || (readDigits text num more).2.2) := by
  induction text generalizing num more with
  | nil => rfl
  | cons c rest ih =>
    simp only [readDigits]
    split
    · simp only [Bool.or_assoc]
      exact ih _ _
    · rfl

theorem readNumber_apply (scan : Scan) :
    readNumber scan = (.ok (widthNumber scan.rest),
      { scan with
        rest := behindNumber scan.rest
        out := ⟨scan.out.text, scan.out.undefined || (readDigits scan.rest 0 false).2.2⟩ }) := by
  have flagged := readDigits_undefined scan.rest 0 scan.out.undefined false
  rw [Bool.or_false] at flagged
  by_cases digit : scan.rest.head?.any Char.isDigit = true
  · simp [readNumber, digit, widthNumber, behindNumber, flagged]
  · have none : readDigits scan.rest 0 false = (scan.rest, 0, false) := by
      cases text : scan.rest with
      | nil => rfl
      | cons c rest =>
        have notDigit : ¬ c.isDigit = true := by simpa [text] using digit
        rw [readDigits, if_neg notDigit]
    simp [readNumber, digit, widthNumber, behindNumber, none]

theorem parseAlignment_apply (scan : Scan) :
    ∃ options, parseAlignment {} scan = (.ok options, { scan with rest := afterAlignment scan.rest }) := by
  obtain ⟨text, args, out⟩ := scan
  cases text with
  | nil => exact ⟨{}, rfl⟩
  | cons c rest =>
    by_cases aligned : c = '<' ∨ c = '>'
    · exact ⟨{ align := if c = '<' then .left else .right }, by simp [parseAlignment, afterAlignment, aligned, advance]⟩
    · exact ⟨{}, by simp [parseAlignment, afterAlignment, aligned]⟩

theorem parseWidth_args (options : FormatOptions) (scan : Scan) :
    (parseWidth options scan).2.args =
        (if widthNumber scan.rest = -1 ∧ (behindNumber scan.rest).take 2 = ['{', '}'] then scan.args.tail
          else scan.args) ∧
      (parseWidth options scan).2.out =
        ⟨scan.out.text, scan.out.undefined || (readDigits scan.rest 0 false).2.2⟩ := by
  simp only [parseWidth, Command.bind_apply, readNumber_apply, Command.ite_apply, Command.get_apply, Command.pure_apply]
  by_cases known : widthNumber scan.rest = -1
  · cases text : behindNumber scan.rest with
    | nil => simp [known]
    | cons c rest =>
      by_cases opens : c = '{'
      · cases rest with
        | nil => simp [known, opens, Scan.peek]
        | cons next rest =>
          by_cases closes : next = '}'
          · simp [known, opens, closes, Scan.peek, advance, nextArg]
            cases scan.args <;> exact ⟨rfl, rfl⟩
          · simp [known, opens, closes, Scan.peek]
      · simp [known, opens]
  · simp [known]

def Moves {α : Type} (handler : Handler α) : Prop :=
  ∀ scan, ∃ value rest, handler scan = (.ok value, { scan with rest := rest })

namespace Moves

variable {α β : Type} {handler other : Handler α}

theorem pure (value : α) : Moves (Pure.pure value : Handler α) := fun scan => ⟨value, scan.rest, rfl⟩

theorem get : Moves (MonadState.get : Handler Scan) := fun scan => ⟨scan, scan.rest, rfl⟩

theorem advance (count : Nat) : Moves (advance count) := fun scan => ⟨(), scan.rest.drop count, rfl⟩

theorem bind {next : α → Handler β} (first : Moves handler) (second : ∀ value, Moves (next value)) :
    Moves (handler >>= next) := by
  intro scan
  obtain ⟨value, rest, moved⟩ := first scan
  obtain ⟨result, last, done⟩ := second value { scan with rest := rest }
  rw [Command.bind_apply, moved]
  exact ⟨result, last, done⟩

theorem ite {condition : Prop} [Decidable condition] (first : Moves handler) (second : Moves other) :
    Moves (if condition then handler else other) := by
  split
  · exact first
  · exact second

end Moves

theorem parseFillBase_moves (options : FormatOptions) : Moves (parseFillBase options) := by
  refine Moves.get.bind fun _ => .ite ((Moves.advance 1).bind fun _ => Moves.get.bind fun scan => ?_) (.pure _)
  split
  · exact .pure _
  · refine .ite ((Moves.advance 2).bind fun _ => .pure _) (.ite ((Moves.advance 1).bind fun _ => ?_) (.pure _))
    exact .ite (.pure _) (.pure _)

/-- A group that fails has lost its argument if it took a width from it. -/
theorem handleFormatter_failed (scan : Scan) (fails : (handleFormatter scan).1 = .error ()) :
    (handleFormatter scan).2.args =
        (if TakesWidth scan.rest.tail then scan.args.tail else scan.args) ∧
      (handleFormatter scan).2.out =
        ⟨scan.out.text, scan.out.undefined || (readDigits (afterAlignment scan.rest.tail) 0 false).2.2⟩ := by
  obtain ⟨options, aligned⟩ := parseAlignment_apply { scan with rest := scan.rest.tail }
  have width := parseWidth_args options { scan with rest := afterAlignment scan.rest.tail }
  simp only [handleFormatter, advance, List.drop_one, Command.bind_apply, Command.modify_apply, aligned] at fails ⊢
  generalize parseWidth options { scan with rest := afterAlignment scan.rest.tail } = widened at width fails ⊢
  obtain ⟨outcome, after⟩ := widened
  cases outcome with
  | error failure => exact width
  | ok options =>
    obtain ⟨filled, rest, based⟩ := parseFillBase_moves options after
    by_cases closed : rest.head? = some '}'
    -- a closed group does not fail
    · simp only [based, Command.get_apply, closed, ne_eq, not_true_eq_false, if_false, Command.bind_apply,
        Command.ite_apply, Command.pure_apply, nextArg, Command.modify_apply] at fails
      cases arg : after.args.head? <;> simp [arg] at fails
    · simp only [based, Command.bind_apply, Command.get_apply, closed, ne_eq, not_false_eq_true, if_true,
        Command.throw_apply, Command.ite_apply]
      exact width

end Parts

section Brace

/-- A state of the loop over a format string, at a brace that opens neither an escape nor a field. -/
structure FailingBrace (fmt : Text) (args : List FormatValue) where
  rounds : Nat
  scan : Scan
  reached : formatLoop rounds ⟨fmt, args, ⟨[], false⟩⟩ = scan
  behind : Text
  opens : scan.rest = '{' :: behind
  single : behind.head? ≠ some '{'
  fails : (handleFormatter scan).1 = .error ()

variable {fmt : Text} {args : List FormatValue}

namespace FailingBrace

variable (brace : FailingBrace fmt args)

/-- The state with the brace written and the text behind it still to come. -/
def resumed : Scan := { brace.scan.put '{' with rest := brace.behind }

/-- The state as it would be if the brace was escaped. -/
def escaped : Scan := { brace.scan with rest := '{' :: '{' :: brace.behind }

theorem formatStep_escaped : formatStep '{' ('{' :: brace.behind) brace.escaped = brace.resumed := rfl

theorem formatStep_failed :
    formatStep '{' brace.behind brace.scan = { brace.resumed with
      args := if TakesWidth brace.behind then brace.scan.args.tail else brace.scan.args
      out := ⟨brace.scan.out.text ++ ['{'],
        brace.scan.out.undefined || (readDigits (afterAlignment brace.behind) 0 false).2.2⟩ } := by
  have failed := handleFormatter_failed brace.scan brace.fails
  have notEscape : ¬ (('{' = '{' ∨ '{' = '}') ∧ brace.scan.peek 1 = '{') := by
    rintro ⟨-, doubled⟩
    have single := brace.single
    rw [Scan.peek, brace.opens] at doubled
    cases text : brace.behind with
    | nil => simp [text] at doubled
    | cons c rest => simp_all
  rw [formatStep, if_neg notEscape]
  rw [brace.opens, List.tail_cons] at failed
  have fails := brace.fails
  -- where the failed parse stopped in the text does not matter: the loop goes on behind the brace
  generalize handleFormatter brace.scan = result at failed fails ⊢
  obtain ⟨outcome, after⟩ := result
  obtain rfl : outcome = .error () := fails
  cases text : brace.behind with
  | nil => simp [resumed, text, TakesWidth, afterAlignment, behindNumber, readDigits, Scan.put]
  | cons c rest =>
    simp only [text] at failed
    simp [resumed, text, Scan.put, failed.1, failed.2]

theorem formatStep_eq_resumed_iff :
    formatStep '{' brace.behind brace.scan = brace.resumed ↔
      (TakesWidth brace.behind → brace.scan.args = []) ∧
        (Overflows brace.behind → brace.scan.out.undefined = true) := by
  rw [formatStep_failed]
  have tail : brace.scan.args.tail = brace.scan.args ↔ brace.scan.args = [] := by
    cases brace.scan.args with
    | nil => simp
    | cons arg rest => simp
  by_cases takes : TakesWidth brace.behind
  · simp [takes, Overflows, resumed, Scan.put, tail]
  · simp [takes, Overflows, resumed, Scan.put]

end FailingBrace

/-- The loop goes on from a brace that opens no field as from an escaped one, with the brace written
and all arguments left, if and only if the group takes no width from an argument that is there and
reads no number that overflows. -/
theorem formatLoop_failing_iff (brace : FailingBrace fmt args) :
    ((∀ rounds, formatLoop (rounds + 1) brace.scan = formatLoop rounds brace.resumed) ∧
        ∀ rounds, formatLoop (rounds + 1) brace.scan = formatLoop (rounds + 1) brace.escaped) ↔
      (TakesWidth brace.behind → brace.scan.args = []) ∧
        (Overflows brace.behind → brace.scan.out.undefined = true) := by
  have here (rounds : Nat) : formatLoop (rounds + 1) brace.scan =
      formatLoop rounds (formatStep '{' brace.behind brace.scan) := by
    rw [formatLoop, brace.opens]
  have there (rounds : Nat) : formatLoop (rounds + 1) brace.escaped = formatLoop rounds brace.resumed := by
    rw [formatLoop, ← brace.formatStep_escaped]
    rfl
  rw [← brace.formatStep_eq_resumed_iff]
  simp only [here, there, and_self]
  exact ⟨fun same => same 0, fun same rounds => by rw [same]⟩

/-- A group with its width from an argument that does not close. -/
def unclosedFormat : Text := "\x7b<{}x {}".toList

def unclosedBrace : FailingBrace unclosedFormat [.int64 5, .int64 7] where
  rounds := 0
  scan := ⟨unclosedFormat, [.int64 5, .int64 7], ⟨[], false⟩⟩
  reached := rfl
  behind := "<{}x {}".toList
  opens := rfl
  single := by decide
  fails := rfl

/-- The first field prints the second argument, where an escaped brace leaves it the first. -/
theorem format_unclosed :
    (format unclosedFormat [.int64 5, .int64 7]).text = "\x7b<7x ".toList ∧
      (format "\x7b\x7b<{}x {}".toList [.int64 5, .int64 7]).text = "\x7b<5x 7".toList ∧
      formatLoop 1 unclosedBrace.scan ≠ formatLoop 1 unclosedBrace.escaped := by
  refine ⟨by decide, by decide, by decide⟩

end Brace

end Cpptrace.Microfmt
