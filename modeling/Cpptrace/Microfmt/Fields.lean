import Cpptrace.Microfmt.Format
import Mathlib.Data.Nat.Log
import Mathlib.Tactic.IntervalCases

/-! The field language of `microfmt::format`, and that the scanner implements it. -/

set_option autoImplicit false

namespace Cpptrace.Microfmt

open Library

section Digits

/-- A table of digits for a base that is a power of 2; `style` says how letters are written. -/
structure DigitTable (shift mask : UInt64) (digits : Text) (bits : Nat) (style : Char → Char) : Prop where
  positive : 0 < bits
  small : bits < 64
  shift : shift.toNat = bits
  mask : mask.toNat = 2 ^ bits - 1
  digit : ∀ d < 2 ^ bits, digits.getD d '\x00' = style (Nat.digitChar d)
  zero : style '0' = '0'

theorem upperHex : DigitTable 4 0xf upperDigits 4 Char.toUpper := by
  constructor <;> decide

theorem lowerHex : DigitTable 4 0xf lowerDigits 4 id := by
  constructor <;> decide

theorem octal : DigitTable 3 0x7 lowerDigits 3 id := by
  constructor <;> decide

theorem binary : DigitTable 1 0x1 lowerDigits 1 id := by
  constructor <;> decide

variable {shift mask : UInt64} {digits : Text} {bits : Nat} {style : Char → Char}

theorem DigitTable.base (table : DigitTable shift mask digits bits style) : 1 < 2 ^ bits :=
  Nat.one_lt_two_pow (Nat.ne_of_gt table.positive)

theorem DigitTable.length_le_iff (table : DigitTable shift mask digits bits style) {value count : Nat}
    (nonzero : value ≠ 0) (positive : 0 < count) :
    (Nat.toDigits (2 ^ bits) value).length ≤ count ↔ value.log2 / bits < count := by
  rw [Nat.length_toDigits_le_iff table.base positive, ← Nat.pow_mul, ← Nat.log2_lt nonzero,
    Nat.div_lt_iff_lt_mul table.positive, Nat.mul_comm]

/-- The number of digits is taken from the place of the highest bit. -/
theorem DigitTable.length_toDigits (table : DigitTable shift mask digits bits style) {value : Nat}
    (nonzero : value ≠ 0) : (Nat.toDigits (2 ^ bits) value).length = 1 + value.log2 / bits := by
  have most := (table.length_le_iff nonzero (Nat.succ_pos _)).mpr (Nat.lt_succ_self (value.log2 / bits))
  have least := (table.length_le_iff nonzero Nat.length_toDigits_pos).mp (Nat.le_refl _)
  omega

/-- The loop writes the digits of a value up to index `i`, and nothing outside. -/
theorem DigitTable.digitLoop_eq (table : DigitTable shift mask digits bits style) (rounds : Nat) (value : UInt64)
    (i : Nat) (number : Rendered) (nonzero : value ≠ 0) (within : i < number.text.length)
    (long : number.text.length ≤ 64) (enough : i < rounds)
    (count : (Nat.toDigits (2 ^ bits) value.toNat).length = i + 1) :
    digitLoop shift mask digits rounds value i number =
      ⟨(Nat.toDigits (2 ^ bits) value.toNat).map style ++ number.text.drop (i + 1), number.undefined⟩ := by
  induction rounds generalizing value i number with
  | zero => cases enough
  | succ rounds ih =>
    have shifted : (value >>> shift).toNat = value.toNat / 2 ^ bits := by
      rw [UInt64.toNat_shiftRight, table.shift, Nat.mod_eq_of_lt table.small, Nat.shiftRight_eq_div_pow]
    have last : digits.getD (value &&& mask).toNat '\x00' = style (Nat.digitChar (value.toNat % 2 ^ bits)) := by
      rw [UInt64.toNat_and, table.mask, Nat.and_two_pow_sub_one_eq_mod]
      exact table.digit _ (Nat.mod_lt _ (Nat.two_pow_pos bits))
    rw [digitLoop, if_neg nonzero, last, decide_eq_false (Nat.not_le.mpr within), Bool.or_false]
    rw [Nat.toDigits_eq_if table.base] at count ⊢
    split at count <;> rename_i size
    · -- the last digit, at the front
      have front : i = 0 := by simpa using count.symm
      have done : value >>> shift = 0 := by
        rw [← UInt64.toNat_inj, shifted]
        exact Nat.div_eq_of_lt size
      subst front
      rw [if_pos size, done, Nat.mod_eq_of_lt size]
      cases rounds <;> cases text : number.text with
      | nil => simp [text] at within
      | cons c rest => simp [digitLoop]
    · have more : value >>> shift ≠ 0 := fun zero => by
        rw [← UInt64.toNat_inj, shifted] at zero
        exact size (Nat.lt_of_div_eq_zero (Nat.two_pow_pos bits) zero)
      have earlier : (Nat.toDigits (2 ^ bits) (value >>> shift).toNat).length = i := by
        rw [shifted]
        simpa using count
      have positive : 0 < i := by
        rw [← earlier]
        exact Nat.length_toDigits_pos
      -- `--i` on a size that is not 0 does not wrap
      have next : (i + (sizeModulus - 1)) % sizeModulus = i - 1 := by
        unfold sizeModulus
        omega
      have inside : i - 1 < (number.text.set i (style (Nat.digitChar (value.toNat % 2 ^ bits)))).length := by
        rw [List.length_set]
        omega
      rw [if_neg size, next, ih _ _ _ more inside (by rwa [List.length_set]) (by omega) (by omega), shifted,
        Nat.sub_add_cancel positive, List.drop_set, if_neg (Nat.lt_irrefl i), Nat.sub_self,
        List.drop_eq_getElem_cons within, List.set_cons_zero, List.map_append, List.map_singleton, List.append_assoc]
      rfl

theorem DigitTable.toStringBits_eq (table : DigitTable shift mask digits bits style) (value : UInt64) :
    toStringBits shift mask digits value = ⟨(Nat.toDigits (2 ^ bits) value.toNat).map style, false⟩ := by
  unfold toStringBits
  split <;> rename_i zero
  · subst zero
    rw [UInt64.toNat_zero, Nat.toDigits_zero, List.map_singleton, table.zero]
  · have nonzero : value.toNat ≠ 0 := fun same => zero (UInt64.toNat_inj.mp same)
    have below : value.toNat.log2 < 64 := (Nat.log2_lt nonzero).mpr value.toNat_lt
    have highest : 63 - clz value = value.toNat.log2 := by
      unfold clz
      omega
    have atMost : value.toNat.log2 / bits ≤ value.toNat.log2 := Nat.div_le_self ..
    have length := table.length_toDigits nonzero
    simp only [highest, table.shift, Nat.add_sub_cancel_left]
    rw [table.digitLoop_eq 64 value _ _ zero (by simp) (by simp; omega) (by omega) (by rw [length, Nat.add_comm])]
    simp [Nat.add_comm]

def inBase (base : Char) (value : Nat) : Text :=
  if base = 'H' then (Nat.toDigits 16 value).map Char.toUpper
  else if base = 'h' then Nat.toDigits 16 value
  else if base = 'o' then Nat.toDigits 8 value
  else if base = 'b' then Nat.toDigits 2 value
  else Nat.toDigits 10 value

theorem toString_eq (value : UInt64) (options : FormatOptions) :
    toString value options = ⟨inBase options.base value.toNat, false⟩ := by
  unfold toString inBase
  rw [upperHex.toStringBits_eq, lowerHex.toStringBits_eq, octal.toStringBits_eq, binary.toStringBits_eq]
  simp only [List.map_id]
  split_ifs <;> rfl

end Digits

section Values

/-- Text of at least a width, filled up on the side that it is not aligned to. -/
def padded (align : Alignment) (fill : Char) (width : Nat) (text : Text) : Text :=
  match align with
  | .left => text ++ List.replicate (width - text.length) fill
  | .right => List.replicate (width - text.length) fill ++ text

theorem doWrite_eq (value : Text) (options : FormatOptions) :
    doWrite value options = padded options.align options.fill options.width value := by
  unfold doWrite padded
  split <;> rename_i fits
  · rw [Nat.sub_eq_zero_of_le fits]
    cases options.align <;> simp
  · rfl

def rendering (base : Char) : FormatValue → Text
  | .char value => [value]
  | .int64 value => (if value.toInt < 0 then ['-'] else []) ++ inBase base value.toInt.natAbs
  | .uint64 value => inBase base value.toNat
  | .string value => value

/-- The least value has no opposite, but its bits are those of its magnitude. -/
theorem magnitude (value : Int64) :
    (if value < 0 then -value else value).toUInt64.toNat = value.toInt.natAbs := by
  have bits : value.toInt = if 2 * value.toBitVec.toNat < 2 ^ 64 then (value.toBitVec.toNat : Int)
      else value.toBitVec.toNat - (2 ^ 64 : Nat) := BitVec.toInt_eq_toNat_cond value.toBitVec
  have small := value.toBitVec.isLt
  split <;> rename_i negative <;> rw [Int64.lt_iff_toInt_lt, Int64.toInt_zero] at negative
  · have opposite : (-value).toUInt64.toNat = (2 ^ 64 - value.toBitVec.toNat) % 2 ^ 64 :=
        BitVec.toNat_neg value.toBitVec
    omega
  · have same : value.toUInt64.toNat = value.toBitVec.toNat := rfl
    omega

theorem write_eq (value : FormatValue) (options : FormatOptions) :
    value.write options =
      ⟨padded options.align options.fill options.width (rendering options.base value),
        decide (value = .int64 Int64.minValue)⟩ := by
  cases value with
  | char value => simp [FormatValue.write, doWrite_eq, rendering]
  | int64 value =>
    simp only [FormatValue.write, doWrite_eq, toString_eq, magnitude, rendering, Bool.false_or, FormatValue.int64.injEq]
    simp only [Int64.lt_iff_toInt_lt, Int64.toInt_zero]
  | uint64 value => simp [FormatValue.write, doWrite_eq, toString_eq, rendering]
  | string value => simp [FormatValue.write, doWrite_eq, rendering]

end Values

section Language

/-- A width that is written out: digits whose value an `int` can hold. -/
structure DecimalWidth where
  digits : Text
  nonempty : digits ≠ []
  decimal : ∀ c ∈ digits, c.isDigit
  bounded : Nat.ofDigitChars 10 digits 0 < 0x80000000

inductive FieldWidth where
  | unspecified
  | decimal (width : DecimalWidth)
  | argument

inductive FieldSpec where
  | empty
  | single (c : Char) (open_ : c ≠ '}')
  | pair (fill base : Char) (fillOpen : fill ≠ '}') (baseOpen : base ≠ '}')

/-- A well-formed field. One with a variable width is aligned, so that no two braces come first. -/
structure Field where
  alignment : Option Alignment
  width : FieldWidth
  spec : Option FieldSpec
  aligned : width = .argument → alignment.isSome

inductive Segment where
  | literal (text : Text)
  | field (field : Field)

def FieldWidth.encode : FieldWidth → Text
  | unspecified => []
  | decimal width => width.digits
  | argument => ['{', '}']

def FieldSpec.encode : FieldSpec → Text
  | empty => []
  | single c _ => [c]
  | pair fill base _ _ => [fill, base]

def encodeAlignment : Alignment → Char
  | .left => '<'
  | .right => '>'

def encodeSpec : Option FieldSpec → Text
  | none => []
  | some spec => ':' :: spec.encode

def Field.encode (field : Field) : Text :=
  '{' :: (field.alignment.toList.map encodeAlignment ++ (field.width.encode ++ (encodeSpec field.spec ++ ['}'])))

def isBrace (c : Char) : Bool := c = '{' || c = '}'

def escape (text : Text) : Text :=
  text.flatMap fun c => if isBrace c then [c, c] else [c]

def Segment.encode : Segment → Text
  | .literal text => escape text
  | .field f => f.encode

def FieldSpec.fill : FieldSpec → Char
  | empty => ' '
  | single c _ => if isBase c then ' ' else c
  | pair fill _ _ _ => fill

def FieldSpec.base : FieldSpec → Char
  | empty => 'd'
  | single c _ => if isBase c then c else 'd'
  | pair _ base _ _ => base

def FormatValue.integer : FormatValue → Option Int
  | int64 value => some value.toInt
  | uint64 value => some value.toNat
  | _ => none

/-- The width of a field and the arguments behind it. -/
def FieldWidth.resolve (args : List FormatValue) : FieldWidth → Nat × List FormatValue
  | unspecified => (0, args)
  | decimal width => (Nat.ofDigitChars 10 width.digits 0, args)
  | argument => ((args.head?.bind FormatValue.integer).getD 0 |>.toNat, args.tail)

/-- What a field stands for: its value, padded, and nothing without a value. -/
def Field.meaning (field : Field) (args : List FormatValue) : Text :=
  match (field.width.resolve args).2 with
  | [] => []
  | value :: _ =>
      padded (field.alignment.getD .left) ((field.spec.getD .empty).fill) (field.width.resolve args).1
        (rendering ((field.spec.getD .empty).base) value)

def Field.remaining (field : Field) (args : List FormatValue) : List FormatValue :=
  (field.width.resolve args).2.tail

def meaning : List Segment → List FormatValue → Text
  | [], _ => []
  | .literal text :: segments, args => text ++ meaning segments args
  | .field field :: segments, args => field.meaning args ++ meaning segments (field.remaining args)

def printed : List Segment → List FormatValue → List FormatValue
  | [], _ => []
  | .literal _ :: segments, args => printed segments args
  | .field field :: segments, args =>
      (field.width.resolve args).2.head?.toList ++ printed segments (field.remaining args)

/-- The arguments that are taken for widths are integers from 0 up to what an `int` can hold. -/
def WidthArguments : List Segment → List FormatValue → Prop
  | [], _ => True
  | .literal _ :: segments, args => WidthArguments segments args
  | .field field :: segments, args =>
      (field.width = .argument → ∀ arg, args.head? = some arg →
        ∃ width, arg.integer = some width ∧ 0 ≤ width ∧ width < 0x80000000) ∧
      WidthArguments segments (field.remaining args)

end Language

section Scanning

theorem toInt_eq {value : Int} (positive : 0 ≤ value) (small : value < 0x80000000) : toInt value = value :=
  Int.bmod_eq_of_le (by omega) (by omega)

theorem toSize_eq {value : Int} (positive : 0 ≤ value) (small : value < 0x80000000) :
    toSize value = value.toNat := by
  unfold toSize sizeModulus
  omega

theorem overflowsInt_eq_false {value : Int} (positive : 0 ≤ value) (small : value < 0x80000000) :
    overflowsInt value = false := by
  simp [overflowsInt]
  omega

theorem le_ofDigitChars (digits : List Char) (start : Nat) : start ≤ Nat.ofDigitChars 10 digits start := by
  rw [Nat.ofDigitChars_eq_ofDigitChars_zero]
  have grown := Nat.le_mul_of_pos_left start (Nat.pow_pos (n := digits.length) (show 0 < 10 by decide))
  omega

theorem readDigits_eq (digits rest : Text) (start : Nat) (undefined : Bool) (decimal : ∀ c ∈ digits, c.isDigit)
    (bounded : Nat.ofDigitChars 10 digits start < 0x80000000) (ends : rest.head?.any Char.isDigit = false) :
    readDigits (digits ++ rest) start undefined =
      (rest, ((Nat.ofDigitChars 10 digits start : Nat) : Int), undefined) := by
  induction digits generalizing start with
  | nil =>
    cases rest with
    | nil => rfl
    | cons c rest =>
      have other : c.isDigit = false := by simpa using ends
      simp [readDigits, other]
  | cons c digits ih =>
    rw [Nat.ofDigitChars_cons] at bounded ⊢
    have least := le_ofDigitChars digits (10 * start + (c.toNat - '0'.toNat))
    have isDigit := decimal c List.mem_cons_self
    simp only [List.cons_append, readDigits, if_pos isDigit]
    have tens : toInt ((start : Int) * 10) = (start : Int) * 10 := toInt_eq (by omega) (by omega)
    have sum : (start : Int) * 10 + (c.toNat - '0'.toNat : Nat) = (10 * start + (c.toNat - '0'.toNat) : Nat) := by omega
    rw [tens, sum, toInt_eq (by omega) (by omega), overflowsInt_eq_false (by omega) (by omega),
      overflowsInt_eq_false (by omega) (by omega), Bool.or_false, Bool.or_false]
    exact ih _ (fun c member => decimal c (List.mem_cons_of_mem _ member)) bounded

theorem readNumber_digits (digits rest : Text) (args : List FormatValue) (out : Rendered) (nonempty : digits ≠ [])
    (decimal : ∀ c ∈ digits, c.isDigit) (bounded : Nat.ofDigitChars 10 digits 0 < 0x80000000)
    (ends : rest.head?.any Char.isDigit = false) :
    readNumber ⟨digits ++ rest, args, out⟩ = (.ok ((Nat.ofDigitChars 10 digits 0 : Nat) : Int), ⟨rest, args, out⟩) := by
  have starts : (digits ++ rest).head?.any Char.isDigit = true := by
    cases digits with
    | nil => exact absurd rfl nonempty
    | cons c digits => exact decimal c List.mem_cons_self
  have read := readDigits_eq digits rest 0 out.undefined decimal bounded ends
  rw [Nat.cast_zero] at read
  simp only [readNumber, Command.bind_apply, Command.get_apply, Command.ite_apply, if_pos starts, read,
    Command.modify_apply, Command.pure_apply]

theorem readNumber_none (scan : Scan) (ends : scan.rest.head?.any Char.isDigit = false) :
    readNumber scan = (.ok (-1), scan) := by
  simp [readNumber, ends]

def AfterWidth (rest : Text) : Prop := rest.head? = some ':' ∨ rest.head? = some '}'

theorem AfterWidth.notDigit {rest : Text} (after : AfterWidth rest) : rest.head?.any Char.isDigit = false := by
  rcases after with colon | brace
  · rw [colon]
    rfl
  · rw [brace]
    rfl

theorem unwrapInt_eq {arg : FormatValue} {value : Int} (holds : arg.integer = some value) (positive : 0 ≤ value)
    (small : value < 0x80000000) : arg.unwrapInt = value := by
  cases arg with
  | char _ => cases holds
  | string _ => cases holds
  | int64 number =>
    rw [← Option.some.inj holds] at positive small ⊢
    exact toInt_eq positive small
  | uint64 number =>
    rw [← Option.some.inj holds] at positive small ⊢
    exact toInt_eq positive small

theorem parseWidth_encode (width : FieldWidth) (options : FormatOptions) (rest : Text) (args : List FormatValue)
    (out : Rendered) (after : AfterWidth rest) (unset : options.width = 0)
    (fits : width = .argument → ∀ arg, args.head? = some arg →
      ∃ value, arg.integer = some value ∧ 0 ≤ value ∧ value < 0x80000000) :
    parseWidth options ⟨width.encode ++ rest, args, out⟩ =
      (.ok { options with width := (width.resolve args).1 }, ⟨rest, (width.resolve args).2, out⟩) := by
  cases width with
  | unspecified =>
    have noBrace : rest.head? ≠ some '{' := by
      rcases after with same | same <;> rw [same] <;> decide
    have none := readNumber_none ⟨rest, args, out⟩ after.notDigit
    simp only [FieldWidth.encode, FieldWidth.resolve, List.nil_append, parseWidth, Command.bind_apply, none,
      Command.ite_apply, Command.get_apply, if_neg noBrace, Command.pure_apply]
    simp [← unset]
  | decimal width =>
    have read := readNumber_digits width.digits rest args out width.nonempty width.decimal width.bounded after.notDigit
    have known : ((Nat.ofDigitChars 10 width.digits 0 : Nat) : Int) ≠ -1 := by omega
    have bounded := width.bounded
    simp only [FieldWidth.encode, FieldWidth.resolve, parseWidth, Command.bind_apply, read, Command.ite_apply,
      if_pos known, Command.pure_apply]
    rw [toSize_eq (by omega) (by omega), Int.toNat_natCast]
  | argument =>
    have none := readNumber_none ⟨'{' :: '}' :: rest, args, out⟩ rfl
    have unknown : ¬ (-1 : Int) ≠ -1 := by decide
    have closed : ¬ Scan.peek ⟨'{' :: '}' :: rest, args, out⟩ 1 ≠ '}' := by simp [Scan.peek]
    simp only [FieldWidth.encode, FieldWidth.resolve, List.cons_append, List.nil_append, parseWidth, Command.bind_apply,
      none, Command.ite_apply, if_neg unknown, Command.get_apply, List.head?_cons, ↓reduceIte, if_neg closed,
      Command.pure_apply, advance, Command.modify_apply, nextArg]
    -- without an argument that is left the width is 0
    cases args with
    | nil => rfl
    | cons arg args =>
      obtain ⟨value, holds, positive, small⟩ := fits rfl arg rfl
      simp only [List.head?_cons, List.tail_cons, Option.bind_some, holds, Option.getD_some, Command.pure_apply]
      rw [unwrapInt_eq holds positive small, toSize_eq positive small]
      rfl

theorem parseAlignment_encode (alignment : Option Alignment) (rest : Text) (args : List FormatValue) (out : Rendered)
    (unaligned : alignment = none → rest.head? ≠ some '<' ∧ rest.head? ≠ some '>') :
    parseAlignment {} ⟨alignment.toList.map encodeAlignment ++ rest, args, out⟩ =
      (.ok { align := alignment.getD .left }, ⟨rest, args, out⟩) := by
  cases alignment with
  | some align => cases align <;> rfl
  | none =>
    obtain ⟨notLess, notGreater⟩ := unaligned rfl
    cases rest with
    | nil => rfl
    | cons c rest =>
      have other : ¬ (c = '<' ∨ c = '>') := by simpa [not_or] using And.intro notLess notGreater
      simp only [parseAlignment, Option.toList_none, List.map_nil, List.nil_append, Command.bind_apply,
        Command.get_apply, List.head?_cons, Command.ite_apply, if_neg other, Command.pure_apply]
      rfl

theorem parseFillBase_encode (spec : Option FieldSpec) (options : FormatOptions) (tail : Text)
    (args : List FormatValue) (out : Rendered) (fill : options.fill = ' ') (base : options.base = 'd') :
    parseFillBase options ⟨encodeSpec spec ++ '}' :: tail, args, out⟩ =
      (.ok { options with fill := (spec.getD .empty).fill, base := (spec.getD .empty).base },
        ⟨'}' :: tail, args, out⟩) := by
  have unchanged : options = { options with fill := ' ', base := 'd' } := by rw [← fill, ← base]
  match spec with
  | none =>
    rw [unchanged]
    rfl
  | some .empty =>
    rw [unchanged]
    rfl
  | some (.single c open_) =>
    simp [parseFillBase, encodeSpec, FieldSpec.encode, advance, open_, FieldSpec.fill, FieldSpec.base]
    by_cases known : isBase c <;> simp [known, fill, base]
  | some (.pair first second firstOpen secondOpen) =>
    simp [parseFillBase, encodeSpec, FieldSpec.encode, advance, firstOpen, secondOpen, FieldSpec.fill, FieldSpec.base]

theorem afterWidth_encodeSpec (spec : Option FieldSpec) (tail : Text) :
    AfterWidth (encodeSpec spec ++ '}' :: tail) := by
  cases spec with
  | none => exact .inr rfl
  | some spec => exact .inl rfl

/-- A field begins neither like an escape nor, without alignment, like an aligned one. -/
theorem head_notMem (width : FieldWidth) (rest : Text) (after : AfterWidth rest) (fixed : width ≠ .argument) :
    ∀ c ∈ ['<', '>', '{'], (width.encode ++ rest).head? ≠ some c := by
  intro c member
  cases width with
  | unspecified => rcases after with same | same <;> simp [FieldWidth.encode, same] <;> simp at member <;> grind
  | argument => exact absurd rfl fixed
  | decimal width =>
    obtain ⟨first, digits, same⟩ := List.exists_cons_of_ne_nil width.nonempty
    have isDigit := width.decimal first (same ▸ List.mem_cons_self)
    rw [FieldWidth.encode, same]
    rintro ⟨⟩
    simp at member
    rcases member with rfl | rfl | rfl <;> cases isDigit

theorem Field.head_ne (field : Field) (tail : Text) : (field.encode ++ tail).tail.head? ≠ some '{' := by
  unfold Field.encode
  cases aligned : field.alignment with
  | some align => cases align <;> simp [encodeAlignment]
  | none =>
    have fixed : field.width ≠ .argument := fun same => by simpa [aligned] using field.aligned same
    simpa using head_notMem field.width _ (afterWidth_encodeSpec field.spec tail) fixed '{' (by simp)

def negatesLeast (values : List FormatValue) : Bool := values.any (· = .int64 Int64.minValue)

theorem handleFormatter_encode (field : Field) (tail : Text) (args : List FormatValue) (out : Rendered)
    (fits : field.width = .argument → ∀ arg, args.head? = some arg →
      ∃ value, arg.integer = some value ∧ 0 ≤ value ∧ value < 0x80000000) :
    handleFormatter ⟨field.encode ++ tail, args, out⟩ =
      (.ok (), ⟨'}' :: tail, field.remaining args,
        ⟨out.text ++ field.meaning args,
          out.undefined || negatesLeast (field.width.resolve args).2.head?.toList⟩⟩) := by
  have after := afterWidth_encodeSpec field.spec tail
  have alignment := parseAlignment_encode field.alignment (field.width.encode ++ (encodeSpec field.spec ++ '}' :: tail))
    args out fun none => by
      have fixed : field.width ≠ .argument := fun same => by simpa [none] using field.aligned same
      exact ⟨head_notMem _ _ after fixed '<' (by simp), head_notMem _ _ after fixed '>' (by simp)⟩
  have width := parseWidth_encode field.width { align := field.alignment.getD .left }
    (encodeSpec field.spec ++ '}' :: tail) args out after rfl fits
  have fillBase := parseFillBase_encode field.spec
    { align := field.alignment.getD .left, width := (field.width.resolve args).1 } tail
    (field.width.resolve args).2 out rfl rfl
  simp only [handleFormatter, Field.encode, advance, Command.bind_apply, Command.modify_apply, List.cons_append,
    List.append_assoc, List.drop_succ_cons, List.drop_zero, List.nil_append, alignment, width, fillBase,
    Command.get_apply, List.head?_cons, ne_eq, not_true_eq_false, ↓reduceIte, nextArg,
    Command.pure_apply]
  unfold Field.remaining Field.meaning negatesLeast
  cases (field.width.resolve args).2 with
  | nil => simp
  | cons value rest => simp [write_eq]

theorem formatLoop_field (field : Field) (tail : Text) (args : List FormatValue) (out : Rendered) (rounds : Nat)
    (fits : field.width = .argument → ∀ arg, args.head? = some arg →
      ∃ value, arg.integer = some value ∧ 0 ≤ value ∧ value < 0x80000000)
    (enough : (field.encode ++ tail).length ≤ rounds) :
    ∃ left, tail.length ≤ left ∧ formatLoop rounds ⟨field.encode ++ tail, args, out⟩ =
      formatLoop left ⟨tail, field.remaining args, ⟨out.text ++ field.meaning args,
        out.undefined || negatesLeast (field.width.resolve args).2.head?.toList⟩⟩ := by
  have handled := handleFormatter_encode field tail args out fits
  have noEscape := field.head_ne tail
  have size : tail.length + 2 ≤ (field.encode ++ tail).length := by
    simp [Field.encode]
    omega
  obtain ⟨behind, split⟩ : ∃ behind, field.encode ++ tail = '{' :: behind := ⟨_, rfl⟩
  rw [split] at handled noEscape enough size ⊢
  obtain ⟨left, rfl⟩ : ∃ left, rounds = left + 1 := ⟨rounds - 1, by omega⟩
  refine ⟨left, by omega, ?_⟩
  have more : behind ≠ [] := fun none => by simp [none] at size
  have opens : ¬ (('{' = '{' ∨ '{' = '}') ∧ Scan.peek ⟨'{' :: behind, args, out⟩ 1 = '{') := by
    cases behind with
    | nil => exact absurd rfl more
    | cons c rest => simpa [Scan.peek] using noEscape
  show formatLoop left (formatStep '{' behind ⟨'{' :: behind, args, out⟩) = _
  rw [formatStep, if_neg opens, if_pos ⟨rfl, more⟩, handled]
  rfl

theorem formatLoop_escape (text tail : Text) (args : List FormatValue) (out : Rendered) (rounds : Nat)
    (enough : (escape text ++ tail).length ≤ rounds) :
    ∃ left, tail.length ≤ left ∧ formatLoop rounds ⟨escape text ++ tail, args, out⟩ =
      formatLoop left ⟨tail, args, ⟨out.text ++ text, out.undefined⟩⟩ := by
  induction text generalizing out rounds with
  | nil => exact ⟨rounds, enough, by simp [escape]⟩
  | cons c text ih =>
    obtain ⟨left, rfl⟩ : ∃ left, rounds = left + 1 := ⟨rounds - 1, by
      have nonempty : 0 < (escape (c :: text) ++ tail).length := by
        unfold escape
        by_cases brace : isBrace c <;> simp [brace]
      omega⟩
    have stepped : formatLoop (left + 1) ⟨escape (c :: text) ++ tail, args, out⟩ =
        formatLoop left ⟨escape text ++ tail, args, ⟨out.text ++ [c], out.undefined⟩⟩ := by
      by_cases brace : isBrace c
      · have isOne : c = '{' ∨ c = '}' := by simpa [isBrace] using brace
        simp [formatLoop, formatStep, escape, brace, isOne, Scan.peek, Scan.put]
      · have notOne : ¬ (c = '{' ∨ c = '}') := by simpa [isBrace] using brace
        simp [formatLoop, formatStep, escape, brace, not_or.mp notOne, Scan.put]
    have shorter : (escape text ++ tail).length ≤ left := by
      have grown : (escape text ++ tail).length + 1 ≤ (escape (c :: text) ++ tail).length := by
        unfold escape
        by_cases brace : isBrace c <;> simp [brace]
      omega
    obtain ⟨last, kept, same⟩ := ih ⟨out.text ++ [c], out.undefined⟩ left shorter
    refine ⟨last, kept, ?_⟩
    rw [stepped, same, List.append_assoc]
    rfl

theorem formatLoop_segments (segments : List Segment) (args : List FormatValue) (out : Rendered) (rounds : Nat)
    (widths : WidthArguments segments args) (enough : (segments.flatMap Segment.encode).length ≤ rounds) :
    (formatLoop rounds ⟨segments.flatMap Segment.encode, args, out⟩).out =
      ⟨out.text ++ meaning segments args, out.undefined || negatesLeast (printed segments args)⟩ := by
  induction segments generalizing args out rounds with
  | nil =>
    cases rounds <;> simp [formatLoop, meaning, printed, negatesLeast]
  | cons segment segments ih =>
    rw [List.flatMap_cons] at enough ⊢
    cases segment with
    | literal text =>
      obtain ⟨left, kept, same⟩ := formatLoop_escape text _ args out rounds enough
      rw [Segment.encode, same, ih args _ left widths kept, List.append_assoc]
      rfl
    | field field =>
      obtain ⟨left, kept, same⟩ := formatLoop_field field _ args out rounds widths.1 enough
      rw [Segment.encode, same, ih _ _ left widths.2 kept, List.append_assoc, Bool.or_assoc]
      unfold negatesLeast
      rw [← List.any_append]
      rfl

end Scanning

/-- The output for a format string of literals and fields is what they mean, in order. Arithmetic
stays within its types unless a field prints the least signed value. -/
theorem format_segments (segments : List Segment) (args : List FormatValue) (widths : WidthArguments segments args) :
    (format (segments.flatMap Segment.encode) args).text = meaning segments args ∧
      ((format (segments.flatMap Segment.encode) args).undefined = true ↔
        .int64 Int64.minValue ∈ printed segments args) := by
  have done := formatLoop_segments segments args ⟨[], false⟩ _ widths (Nat.le_refl _)
  unfold format
  rw [done]
  exact ⟨rfl, by simp [negatesLeast]⟩

theorem format_segments_at_hex :
    (format "a\x7b\x7b\x7b>\x7b\x7d:0h\x7d".toList [.int64 5, .uint64 255]).text = "a\x7b000ff".toList := by
  let hex : Field := ⟨some .right, .argument, some (.pair '0' 'h' (by decide) (by decide)), fun _ => rfl⟩
  have widths : WidthArguments [.literal "a\x7b".toList, .field hex] [.int64 5, .uint64 255] :=
    ⟨fun _ arg first => ⟨5, Option.some.inj first ▸ rfl, by decide, by decide⟩, trivial⟩
  exact (format_segments _ _ widths).1

end Cpptrace.Microfmt
