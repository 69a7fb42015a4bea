import Mathlib.Data.List.Basic
import Mathlib.Data.Nat.Digits.Lemmas

/-! Numerals: a number as the list of its digits in a base.

What a character stands for is left open, so that digits can be written in more than
one way. A number has one numeral without leading zeros, up to that way. Bytes are
digits in base 256, in either order, and picked out of a number with masks.
-/

set_option autoImplicit false

namespace Cpptrace.Library

variable {α : Type}

section Digits

theorem exists_of_mem_toDigits {base value : Nat} (large : 1 < base) {c : Char} (member : c ∈ Nat.toDigits base value) :
    ∃ digit < base, c = Nat.digitChar digit := by
  induction value using Nat.strongRecOn with
  | ind value ih =>
    rw [Nat.toDigits_eq_if large] at member
    split at member
    next small => exact ⟨value, small, List.mem_singleton.mp member⟩
    next more =>
      rcases List.mem_append.mp member with earlier | last
      · exact ih _ (Nat.div_lt_self (by omega) large) earlier
      · exact ⟨value % base, Nat.mod_lt _ (by omega), List.mem_singleton.mp last⟩

/-- The first digit of a number that is not zero is not zero either. -/
theorem exists_head_toDigits {base value : Nat} (large : 1 < base) (nonzero : value ≠ 0) :
    ∃ digit < base, digit ≠ 0 ∧ (Nat.toDigits base value).head? = some (Nat.digitChar digit) := by
  induction value using Nat.strongRecOn with
  | ind value ih =>
    rw [Nat.toDigits_eq_if large]
    split
    next small => exact ⟨value, small, nonzero, rfl⟩
    next more =>
      have quotient : value / base ≠ 0 := fun zero => more (Nat.lt_of_div_eq_zero (by omega) zero)
      obtain ⟨digit, inBase, positive, first⟩ := ih _ (Nat.div_lt_self (by omega) large) quotient
      exact ⟨digit, inBase, positive, by rw [List.head?_append, first, Option.some_or]⟩

end Digits

def readNumeral (digitOf : α → Nat) (base : Nat) (text : List α) : Nat :=
  text.foldl (fun value c => base * value + digitOf c) 0

structure IsNumeral (digitOf : α → Nat) (base value : Nat) (text : List α) : Prop where
  nonempty : text ≠ []
  digits : ∀ c ∈ text, digitOf c < base
  reads : readNumeral digitOf base text = value
  leading : value ≠ 0 → ∀ c ∈ text.head?, digitOf c ≠ 0

theorem readNumeral_toDigits {digitOf : Char → Nat} {base : Nat} {style : Char → Char} (large : 1 < base)
    (known : ∀ digit < base, digitOf (style (Nat.digitChar digit)) = digit) (value : Nat) :
    readNumeral digitOf base ((Nat.toDigits base value).map style) = value := by
  induction value using Nat.strongRecOn with
  | ind value ih =>
    rw [Nat.toDigits_eq_if large]
    split
    next small => simp [readNumeral, known value small]
    next more =>
      have earlier := ih (value / base) (Nat.div_lt_self (by omega) large)
      have last := known (value % base) (Nat.mod_lt _ (by omega))
      unfold readNumeral at earlier ⊢
      rw [List.map_append, List.foldl_append, earlier, List.map_singleton, List.foldl_cons, List.foldl_nil, last]
      exact Nat.div_add_mod value base

/-- The digits of a number are its numeral, whichever way each is written. -/
theorem isNumeral_toDigits {digitOf : Char → Nat} {base : Nat} {style : Char → Char} (large : 1 < base)
    (known : ∀ digit < base, digitOf (style (Nat.digitChar digit)) = digit) (value : Nat) :
    IsNumeral digitOf base value ((Nat.toDigits base value).map style) where
  nonempty := by
    rw [ne_eq, List.map_eq_nil_iff]
    exact Nat.toDigits_ne_nil
  digits := by
    intro c member
    obtain ⟨d, written, rfl⟩ := List.mem_map.mp member
    obtain ⟨digit, inBase, rfl⟩ := exists_of_mem_toDigits large written
    rwa [known digit inBase]
  reads := readNumeral_toDigits large known value
  leading := by
    intro nonzero c first
    obtain ⟨digit, inBase, positive, head⟩ := exists_head_toDigits large nonzero
    rw [List.head?_map, head, Option.map_some, Option.mem_some_iff] at first
    rwa [← first, known digit inBase]

section Bytes

abbrev Bytes := List UInt8

def valueOf (littleEndian : Bool) (bytes : Bytes) : Nat :=
  Nat.ofDigits 256 ((if littleEndian then bytes else bytes.reverse).map UInt8.toNat)

theorem valueOf_reverse (littleEndian : Bool) (bytes : Bytes) :
    valueOf littleEndian bytes.reverse = valueOf (!littleEndian) bytes := by
  cases littleEndian with
  | true => rfl
  | false => simp [valueOf]

theorem valueOf_lt (littleEndian : Bool) (bytes : Bytes) : valueOf littleEndian bytes < 256 ^ bytes.length := by
  have short : ∀ digit ∈ (if littleEndian then bytes else bytes.reverse).map UInt8.toNat, digit < 256 := by
    intro digit member
    obtain ⟨byte, -, rfl⟩ := List.mem_map.mp member
    exact byte.toNat_lt
  have bound := Nat.ofDigits_lt_base_pow_length (by decide) short
  cases littleEndian <;> simpa [valueOf] using bound

section Lists

variable (byte : UInt8) (rest : Bytes)

theorem valueOf_nil (littleEndian : Bool) : valueOf littleEndian [] = 0 := by cases littleEndian <;> rfl

theorem valueOf_little_cons : valueOf true (byte :: rest) = byte.toNat + 256 * valueOf true rest := rfl

theorem valueOf_big_cons : valueOf false (byte :: rest) = byte.toNat * 256 ^ rest.length + valueOf false rest := by
  simp [valueOf, Nat.ofDigits_append, Nat.mul_comm, Nat.add_comm]

end Lists

section Masks

def digit (value index : Nat) : Nat := value / 256 ^ index % 256

theorem digit_lt (value index : Nat) : digit value index < 256 := Nat.mod_lt _ (by decide)

theorem digit_zero (byte : UInt8) (rest : Bytes) : digit (valueOf true (byte :: rest)) 0 = byte.toNat := by
  have := byte.toNat_lt
  rw [digit, valueOf_little_cons]
  omega

theorem digit_succ (byte : UInt8) (rest : Bytes) (index : Nat) :
    digit (valueOf true (byte :: rest)) (index + 1) = digit (valueOf true rest) index := by
  have := byte.toNat_lt
  have front : (byte.toNat + 256 * valueOf true rest) / 256 = valueOf true rest := by omega
  rw [digit, valueOf_little_cons, Nat.pow_succ', ← Nat.div_div_eq_div_mul, front]
  rfl

theorem and_byteMask (value index : Nat) : value &&& (0xff <<< (8 * index)) = digit value index <<< (8 * index) := by
  rw [digit, show 0xff = 2 ^ 8 - 1 from rfl, show 256 = 2 ^ 8 from rfl, ← Nat.pow_mul, ← Nat.shiftRight_eq_div_pow]
  apply Nat.eq_of_testBit_eq
  intro i
  rw [Nat.testBit_and, Nat.testBit_shiftLeft, Nat.testBit_two_pow_sub_one, Nat.testBit_shiftLeft,
    Nat.testBit_mod_two_pow,
    Nat.testBit_shiftRight]
  by_cases above : 8 * index ≤ i
  · rw [Nat.add_sub_cancel' above, Bool.and_left_comm, Bool.and_comm (value.testBit i)]
  · simp [above]

theorem masked_shiftRight (value index down : Nat) (le : down ≤ 8 * index) :
    (value &&& (0xff <<< (8 * index))) >>> down = digit value index <<< (8 * index - down) := by
  rw [and_byteMask, ← Nat.shiftLeft_sub _ le]

theorem masked_shiftLeft (value index up : Nat) :
    (value &&& (0xff <<< (8 * index))) <<< up = digit value index <<< (8 * index + up) := by
  rw [and_byteMask, Nat.shiftLeft_add]

theorem or_shiftLeft (low high shift : Nat) (fits : low < 2 ^ shift) :
    low ||| high <<< shift = low + high * 2 ^ shift := by
  rw [Nat.or_comm, ← Nat.shiftLeft_add_eq_or_of_lt fits, Nat.shiftLeft_eq, Nat.add_comm]

end Masks

end Bytes

end Cpptrace.Library
