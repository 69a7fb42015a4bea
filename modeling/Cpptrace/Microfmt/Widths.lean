import Cpptrace.Microfmt.Fields
import Cpptrace.Microfmt.Backtracking

/-! How far a width reaches.

A width goes through an `int` before it is a size, whether it is an argument or
digits of the format string.
-/

set_option autoImplicit false

namespace Cpptrace.Microfmt

open Library

section Arguments

def alignedField (align : Alignment) : Text := ['{', encodeAlignment align, '{', '}', '}']

/-- What becomes of a width on its way through an `int`. -/
def narrowed (width : Int) : Nat := toSize (toInt width)

theorem toInt_wraps (width : Int) :
    toInt width = if width % 0x100000000 < 0x80000000 then width % 0x100000000 else width % 0x100000000 - 0x100000000 :=
  rfl

/-- Only small sizes are kept, and those that stand for small negative numbers. -/
theorem narrowed_eq_iff {width : Nat} (size : width < sizeModulus) :
    narrowed width = width ↔ width < 0x80000000 ∨ sizeModulus - 0x80000000 ≤ width := by
  unfold narrowed toSize
  rw [toInt_wraps]
  unfold sizeModulus at *
  split <;> omega

theorem narrowed_le_iff (width length : Nat) :
    narrowed width ≤ length ↔ width % 0x100000000 < 0x80000000 ∧ width % 0x100000000 ≤ length ∨
      sizeModulus - 0x100000000 + width % 0x100000000 ≤ length := by
  unfold narrowed toSize
  rw [toInt_wraps]
  unfold sizeModulus at *
  split <;> omega

theorem unwrapInt_narrows {arg : FormatValue} {width : Nat} (holds : arg.integer = some (width : Int)) :
    toSize arg.unwrapInt = narrowed width := by
  cases arg with
  | char _ => cases holds
  | string _ => cases holds
  | int64 value => exact congrArg narrowed (Option.some.inj holds)
  | uint64 value => exact congrArg narrowed (Option.some.inj holds)

theorem integer_uint64 {value : UInt64} {width : Nat} (same : value.toNat = width) :
    (FormatValue.uint64 value).integer = some (width : Int) := by
  subst same
  rfl

theorem integer_size {arg : FormatValue} {width : Nat} (holds : arg.integer = some (width : Int)) :
    width < sizeModulus := by
  cases arg with
  | char _ => cases holds
  | string _ => cases holds
  | int64 value =>
    have below := value.toInt_lt
    have same := Option.some.inj holds
    unfold sizeModulus
    omega
  | uint64 value =>
    have below := value.toNat_lt
    have same := Option.some.inj holds
    unfold sizeModulus
    omega

theorem format_alignedField (align : Alignment) (arg : FormatValue) (value : Text) :
    format (alignedField align) [arg, .string value] = ⟨padded align ' ' (toSize arg.unwrapInt) value, false⟩ := by
  rw [← doWrite_eq value { align := align, width := toSize arg.unwrapInt }]
  cases align <;> rfl

theorem format_newline_alignedField (align : Alignment) (arg : FormatValue) (value : Text) :
    format ('\n' :: alignedField align) [arg, .string value] =
      ⟨'\n' :: padded align ' ' (toSize arg.unwrapInt) value, false⟩ := by
  rw [← doWrite_eq value { align := align, width := toSize arg.unwrapInt }]
  cases align <;> rfl

theorem length_padded (align : Alignment) (fill : Char) (width : Nat) (value : Text) :
    (padded align fill width value).length = max width value.length := by
  unfold padded
  cases align <;> simp only [List.length_append, List.length_replicate] <;> omega

/-- A width that a field honours: it is kept, or the value is as long as the width and what became of it. -/
def WidthFits (width length : Nat) : Prop :=
  width < 0x80000000 ∨ sizeModulus - 0x80000000 ≤ width ∨
    width ≤ length ∧ (width % 0x100000000 < 0x80000000 ∨ sizeModulus - 0x100000000 + width % 0x100000000 ≤ length)

instance (width length : Nat) : Decidable (WidthFits width length) := inferInstanceAs (Decidable (_ ∨ _ ∨ _))

theorem max_narrowed_iff {width length : Nat} (size : width < sizeModulus) :
    max (narrowed width) length = max width length ↔ WidthFits width length := by
  have kept := narrowed_eq_iff size
  have covered := narrowed_le_iff width length
  unfold WidthFits
  omega

theorem length_alignedField_iff (align : Alignment) {arg : FormatValue} {width : Nat}
    (holds : arg.integer = some (width : Int)) (value : Text) :
    (format (alignedField align) [arg, .string value]).text.length = max width value.length ↔
      WidthFits width value.length := by
  rw [format_alignedField, length_padded, unwrapInt_narrows holds]
  exact max_narrowed_iff (integer_size holds)

end Arguments

section Decimals

theorem overflowsInt_eq_true {value : Int} (large : 0x80000000 ≤ value) : overflowsInt value = true := by
  simp [overflowsInt]
  omega

theorem readDigits_overflowed (text : Text) (start : Int) : (readDigits text start true).2.2 = true := by
  have kept := readDigits_undefined text start true false
  rw [Bool.true_or, Bool.true_or] at kept
  rw [kept]

theorem readDigits_overflow (digits rest : Text) (start : Nat) (decimal : ∀ c ∈ digits, c.isDigit)
    (fits : start < 0x80000000) (large : 0x80000000 ≤ Nat.ofDigitChars 10 digits start) :
    (readDigits (digits ++ rest) start false).2.2 = true := by
  induction digits generalizing start with
  | nil => exact absurd large (Nat.not_le.mpr fits)
  | cons c digits ih =>
    rw [Nat.ofDigitChars_cons] at large
    have later : ∀ c ∈ digits, c.isDigit := fun c member => decimal c (List.mem_cons_of_mem _ member)
    simp only [List.cons_append, readDigits, if_pos (decimal c List.mem_cons_self), Bool.false_or]
    -- it overflows at this digit, in one of two places, or at a later one
    by_cases tens : start * 10 < 0x80000000
    · have shifted : toInt ((start : Int) * 10) = (start : Int) * 10 := toInt_eq (by omega) (by omega)
      have sum : (start : Int) * 10 + (c.toNat - '0'.toNat : Nat) = (10 * start + (c.toNat - '0'.toNat) : Nat) := by
        omega
      rw [shifted, sum, overflowsInt_eq_false (by omega) (by omega), Bool.false_or]
      by_cases next : 10 * start + (c.toNat - '0'.toNat) < 0x80000000
      · rw [toInt_eq (by omega) (by omega), overflowsInt_eq_false (by omega) (by omega)]
        exact ih _ later next large
      · rw [overflowsInt_eq_true (by omega)]
        exact readDigits_overflowed _ _
    · rw [overflowsInt_eq_true (by omega), Bool.true_or]
      exact readDigits_overflowed _ _

/-- A width that is written out is read as its value, with nothing undefined, if and only if an `int`
can hold it. -/
theorem parseWidth_digits_iff (digits rest text : Text) (options : FormatOptions) (args : List FormatValue)
    (nonempty : digits ≠ []) (decimal : ∀ c ∈ digits, c.isDigit) (ends : rest.head?.any Char.isDigit = false) :
    parseWidth options ⟨digits ++ rest, args, ⟨text, false⟩⟩ =
        (.ok { options with width := Nat.ofDigitChars 10 digits 0 }, ⟨rest, args, ⟨text, false⟩⟩) ↔
      Nat.ofDigitChars 10 digits 0 < 0x80000000 := by
  constructor
  · intro parsed
    have out := (parseWidth_args options ⟨digits ++ rest, args, ⟨text, false⟩⟩).2
    rw [parsed] at out
    -- whatever is read behind an overflow, it stays noted
    by_contra large
    have overflowed := readDigits_overflow digits rest 0 decimal (by decide) (Nat.not_lt.mp large)
    rw [Nat.cast_zero] at overflowed
    rw [overflowed] at out
    cases out
  · intro bounded
    have read := readNumber_digits digits rest args ⟨text, false⟩ nonempty decimal bounded ends
    have known : ((Nat.ofDigitChars 10 digits 0 : Nat) : Int) ≠ -1 := by omega
    simp only [parseWidth, Command.bind_apply, read, Command.ite_apply, if_pos known, Command.pure_apply]
    rw [toSize_eq (by omega) (by omega), Int.toNat_natCast]

end Decimals

end Cpptrace.Microfmt
