import Cpptrace.Microfmt.Fields
import Cpptrace.Library.Numerals

/-! Integers are written exactly, in every base. -/

set_option autoImplicit false

namespace Cpptrace.Microfmt

open Library

section Bases

def radix (base : Char) : Nat :=
  if base = 'H' ∨ base = 'h' then 16 else if base = 'o' then 8 else if base = 'b' then 2 else 10

/-- Letters are upper case for `H` only. -/
def digitOf (base c : Char) : Nat :=
  if base = 'H' then upperDigits.idxOf c else lowerDigits.idxOf c

/-- The bits of a digit, where `to_string<shift, mask>` counts the digits before it writes them. -/
def digitBits (base : Char) : Option Nat :=
  if base = 'H' ∨ base = 'h' then some 4 else if base = 'o' then some 3 else if base = 'b' then some 1 else none

theorem isNumeral_inBase (base : Char) (value : Nat) :
    IsNumeral (digitOf base) (radix base) value (inBase base value) := by
  have plain {count : Nat} (large : 1 < count) (other : base ≠ 'H')
      (known : ∀ digit < count, lowerDigits.idxOf (Nat.digitChar digit) = digit) :
      IsNumeral (digitOf base) count value (Nat.toDigits count value) := by
    have written : ∀ digit < count, digitOf base (id (Nat.digitChar digit)) = digit := by
      intro digit small
      rw [digitOf, if_neg other]
      exact known digit small
    have numeral := isNumeral_toDigits large written value
    rwa [List.map_id] at numeral
  unfold radix inBase
  -- upper case is apart, since its letters have a table of their own
  by_cases upper : base = 'H'
  · have known : ∀ digit < 16, digitOf base (Char.toUpper (Nat.digitChar digit)) = digit := by
      subst upper
      decide
    rw [if_pos (.inl upper), if_pos upper]
    exact isNumeral_toDigits (by decide) known value
  simp only [upper, false_or, if_false]
  split_ifs
  · exact plain (by decide) upper (by decide)
  · exact plain (by decide) upper (by decide)
  · exact plain (by decide) upper (by decide)
  · exact plain (by decide) upper (by decide)

theorem length_inBase (base : Char) (value : Nat) :
    (inBase base value).length = (Nat.toDigits (radix base) value).length := by
  unfold inBase radix
  by_cases upper : base = 'H'
  · rw [if_pos upper, if_pos (.inl upper), List.length_map]
  simp only [upper, false_or, if_false]
  split_ifs <;> rfl

theorem length_toString {bits : Nat} {value : UInt64} (options : FormatOptions)
    (known : digitBits options.base = some bits) (nonzero : value ≠ 0) :
    (toString value options).text.length = 1 + (63 - clz value) / bits := by
  have positive : value.toNat ≠ 0 := fun same => nonzero (UInt64.toNat_inj.mp same)
  have below : value.toNat.log2 < 64 := (Nat.log2_lt positive).mpr value.toNat_lt
  have highest : 63 - clz value = value.toNat.log2 := by
    unfold clz
    omega
  rw [toString_eq, length_inBase, highest]
  unfold digitBits at known
  unfold radix
  split_ifs at known ⊢
  · rw [← Option.some.inj known]
    exact upperHex.length_toDigits positive
  · rw [← Option.some.inj known]
    exact octal.length_toDigits positive
  · rw [← Option.some.inj known]
    exact binary.length_toDigits positive

end Bases

section Exactness

/-- What is written of an unsigned value: its numeral, which fills the buffer that was made for it. -/
structure UnsignedExact (value : UInt64) (options : FormatOptions) : Prop where
  numeral : IsNumeral (digitOf options.base) (radix options.base) value.toNat (toString value options).text
  counted : value ≠ 0 → ∀ bits ∈ digitBits options.base,
    (toString value options).text.length = 1 + (63 - clz value) / bits
  inBuffer : (toString value options).undefined = false

theorem toString_exact (value : UInt64) (options : FormatOptions) : UnsignedExact value options where
  numeral := by
    rw [toString_eq]
    exact isNumeral_inBase options.base value.toNat
  counted := fun nonzero bits known => length_toString options known nonzero
  inBuffer := by rw [toString_eq]

/-- What is written of a signed value: a sign and the numeral of its magnitude, and no overflow. -/
structure SignedExact (value : Int64) (options : FormatOptions) (digits : Text) : Prop where
  numeral : IsNumeral (digitOf options.base) (radix options.base) value.toInt.natAbs digits
  text : ((FormatValue.int64 value).write options).text =
    doWrite ((if value.toInt < 0 then ['-'] else []) ++ digits) options
  defined : ((FormatValue.int64 value).write options).undefined = false

theorem signedExact_iff (value : Int64) (options : FormatOptions) :
    (∃ digits, SignedExact value options digits) ↔ value ≠ Int64.minValue := by
  have written := write_eq (.int64 value) options
  constructor
  · rintro ⟨digits, exact⟩ least
    have defined := exact.defined
    rw [written, least] at defined
    cases defined
  · intro other
    refine ⟨inBase options.base value.toInt.natAbs, isNumeral_inBase .., ?_, ?_⟩
    · rw [written, doWrite_eq]
      rfl
    · rw [written]
      exact decide_eq_false fun same => other (FormatValue.int64.inj same)

end Exactness

/-- Unsigned values are written exactly in each base. Signed ones are, but for the least. -/
theorem integers_exact (options : FormatOptions) :
    (∀ value, UnsignedExact value options) ∧
      ∀ value, (∃ digits, SignedExact value options digits) ↔ value ≠ Int64.minValue :=
  ⟨fun value => toString_exact value options, fun value => signedExact_iff value options⟩

/-- The least value is negated, which overflows. -/
theorem least_not_exact :
    ¬ ∀ value options, isBase options.base → ∃ digits, SignedExact value options digits := by
  intro exact
  obtain ⟨digits, least⟩ := exact Int64.minValue {} rfl
  exact (signedExact_iff Int64.minValue {}).mp ⟨digits, least⟩ rfl

end Cpptrace.Microfmt
