import Cpptrace.Library.Numerals

/-! `is_little_endian` and `byteswap`, for integers of one, two, four and eight bytes. -/

set_option autoImplicit false

namespace Cpptrace.Utils

open Library

/-- `byte_swapper`, by the size of its type. There is none for another size. -/
def byteSwapper : (size : Nat) → (val : Nat) → Nat
  | 1, val => val
  | 2, val => ((val >>> 8) &&& 0xff) ||| ((val &&& 0xff) <<< 8)
  | 4, val =>
      ((val &&& 0xff000000) >>> 24) ||| ((val &&& 0x00ff0000) >>> 8) ||| ((val &&& 0x0000ff00) <<< 8) |||
        ((val &&& 0x000000ff) <<< 24)
  | 8, val =>
      ((val &&& 0xff00000000000000) >>> 56) ||| ((val &&& 0x00ff000000000000) >>> 40) |||
        ((val &&& 0x0000ff0000000000) >>> 24) ||| ((val &&& 0x000000ff00000000) >>> 8) |||
        ((val &&& 0x00000000ff000000) <<< 8) ||| ((val &&& 0x0000000000ff0000) <<< 24) |||
        ((val &&& 0x000000000000ff00) <<< 40) ||| ((val &&& 0x00000000000000ff) <<< 56)
  | _, val => val

def byteswap (size val : Nat) : Nat := byteSwapper size val

def IsIntegerSize (size : Nat) : Prop := size = 1 ∨ size = 2 ∨ size = 4 ∨ size = 8

section Swappers

variable (val : Nat)

theorem byteSwapper_two : byteSwapper 2 val = digit val 1 + digit val 0 * 2 ^ 8 := by
  have first := and_byteMask (val >>> 8) 0
  have second := masked_shiftLeft val 0 8
  have shifted : digit (val >>> 8) 0 = digit val 1 := by simp [digit, Nat.shiftRight_eq_div_pow]
  simp only [Nat.reduceMul, Nat.reduceAdd, Nat.shiftLeft_zero, shifted] at first second
  rw [byteSwapper, first, second, or_shiftLeft _ _ 8 (digit_lt val 1)]

theorem byteSwapper_four :
    byteSwapper 4 val = digit val 3 + digit val 2 * 2 ^ 8 + digit val 1 * 2 ^ 16 + digit val 0 * 2 ^ 24 := by
  have first := masked_shiftRight val 3 24 (by decide)
  have second := masked_shiftRight val 2 8 (by decide)
  have third := masked_shiftLeft val 1 8
  have fourth := masked_shiftLeft val 0 24
  have bound := digit_lt val
  have := bound 1
  have := bound 2
  have := bound 3
  simp only [Nat.reduceShiftLeft, Nat.reduceMul, Nat.reduceSub, Nat.reduceAdd, Nat.shiftLeft_zero]
    at first second third fourth
  rw [byteSwapper, first, second, third, fourth, or_shiftLeft _ _ 8, or_shiftLeft _ _ 16, or_shiftLeft _ _ 24]
  all_goals omega

theorem byteSwapper_eight :
    byteSwapper 8 val =
      digit val 7 + digit val 6 * 2 ^ 8 + digit val 5 * 2 ^ 16 + digit val 4 * 2 ^ 24 +
      digit val 3 * 2 ^ 32 + digit val 2 * 2 ^ 40 + digit val 1 * 2 ^ 48 + digit val 0 * 2 ^ 56 := by
  have first := masked_shiftRight val 7 56 (by decide)
  have second := masked_shiftRight val 6 40 (by decide)
  have third := masked_shiftRight val 5 24 (by decide)
  have fourth := masked_shiftRight val 4 8 (by decide)
  have fifth := masked_shiftLeft val 3 8
  have sixth := masked_shiftLeft val 2 24
  have seventh := masked_shiftLeft val 1 40
  have eighth := masked_shiftLeft val 0 56
  have bound := digit_lt val
  have := bound 1
  have := bound 2
  have := bound 3
  have := bound 4
  have := bound 5
  have := bound 6
  have := bound 7
  simp only [Nat.reduceShiftLeft, Nat.reduceMul, Nat.reduceSub, Nat.reduceAdd, Nat.shiftLeft_zero]
    at first second third fourth fifth sixth seventh eighth
  rw [byteSwapper, first, second, third, fourth, fifth, sixth, seventh, eighth, or_shiftLeft _ _ 8, or_shiftLeft _ _ 16,
    or_shiftLeft _ _ 24, or_shiftLeft _ _ 32, or_shiftLeft _ _ 40, or_shiftLeft _ _ 48, or_shiftLeft _ _ 56]
  all_goals omega

end Swappers

theorem byteswap_little (bytes : Bytes) (integer : IsIntegerSize bytes.length) :
    byteswap bytes.length (valueOf true bytes) = valueOf false bytes := by
  unfold byteswap
  rcases integer with one | two | four | eight
  · match bytes, one with
    | [a], _ => rfl
  · rw [two, byteSwapper_two]
    match bytes, two with
    | [a, b], _ =>
      simp only [digit_succ, digit_zero, valueOf_big_cons, valueOf_nil, List.length_cons, List.length_nil]
      omega
  · rw [four, byteSwapper_four]
    match bytes, four with
    | [a, b, c, d], _ =>
      simp only [digit_succ, digit_zero, valueOf_big_cons, valueOf_nil, List.length_cons, List.length_nil]
      omega
  · rw [eight, byteSwapper_eight]
    match bytes, eight with
    | [a, b, c, d, e, f, g, h], _ =>
      simp only [digit_succ, digit_zero, valueOf_big_cons, valueOf_nil, List.length_cons, List.length_nil]
      omega

theorem byteswap_valueOf (littleEndian : Bool) (bytes : Bytes) (integer : IsIntegerSize bytes.length) :
    byteswap bytes.length (valueOf littleEndian bytes) = valueOf (!littleEndian) bytes := by
  cases littleEndian with
  | true => exact byteswap_little bytes integer
  | false =>
    have swapped := byteswap_little bytes.reverse (by rwa [List.length_reverse])
    rwa [List.length_reverse, valueOf_reverse, valueOf_reverse] at swapped

end Cpptrace.Utils
