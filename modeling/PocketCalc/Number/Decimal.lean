import PocketCalc.Number.Binary64
import PocketCalc.Text.Blank

/-!
# Decimals

A decimal is a whole number of digits scaled by a power of ten. It has a nearest double, and a
positional layout that never falls back on an exponent. The bounds that spare `word` the
arithmetic on far exponents do not change its answer.
-/
namespace PocketCalc

structure Decimal where
  digits : Nat
  exponent : Int
  deriving DecidableEq, Repr

namespace Decimal

open Binary64 (nearestWord infinityWord roundHalfEven unitExponent unitsPerOne)

def numerator (decimal : Decimal) : Nat :=
  decimal.digits * 10 ^ decimal.exponent.toNat

def denominator (decimal : Decimal) : Nat :=
  10 ^ (-decimal.exponent).toNat

/-- The word of the nearest double. Above `10 ^ 400` that is infinity and far below half a unit it
is zero, for which the powers of ten are not formed. -/
def word (decimal : Decimal) : Nat :=
  if decimal.digits = 0 then 0
  else if 400 < decimal.exponent then infinityWord
  else if decimal.digits.log2 + unitExponent + 2 < 3 * -decimal.exponent then 0
  else nearestWord decimal.numerator decimal.denominator

def toFloat (decimal : Decimal) : Float :=
  Binary64.ofWord decimal.word

def trimZeros (digits : Text) : Text :=
  (digits.reverse.dropWhile (· == '0')).reverse

/-- Digits in their places, with a point only before a fraction that is not zero. -/
def layout (decimal : Decimal) : Text :=
  let whole := Nat.toDigits 10 (decimal.numerator / decimal.denominator)
  let fraction := trimZeros (List.leftpad (-decimal.exponent).toNat '0'
    (Nat.toDigits 10 (decimal.numerator % decimal.denominator)))
  if fraction.isEmpty then whole else whole ++ '.' :: fraction

theorem nearestWord_zero (denominator : Nat) : nearestWord 0 denominator = 0 := by
  simp [nearestWord, roundHalfEven, infinityWord, Nat.log2_def]
  omega

theorem nearestWord_of_large {numerator exponent : Nat} (range : 1025 ≤ exponent)
    (h : 2 ^ exponent ≤ numerator) : nearestWord numerator 1 = infinityWord := by
  have large : 2 ^ (exponent + unitExponent) ≤ numerator * unitsPerOne := by
    rw [← Binary64.two_pow_mul_unitsPerOne]
    exact Nat.mul_le_mul_right _ h
  have bits : exponent + unitExponent ≤ (numerator * unitsPerOne).log2 :=
    (Nat.le_log2 (Nat.ne_of_gt (Nat.lt_of_lt_of_le (Nat.two_pow_pos _) large))).mpr large
  unfold nearestWord
  simp only [Nat.div_one]
  refine Nat.min_eq_right (Nat.le_trans ?_ (Nat.le_add_right _ _))
  exact Nat.mul_le_mul_right _ (by unfold unitExponent at bits; omega)

theorem nearestWord_of_small {numerator denominator : Nat}
    (h : 2 * (numerator * unitsPerOne) < denominator) : nearestWord numerator denominator = 0 := by
  have below : numerator * unitsPerOne / denominator = 0 := Nat.div_eq_of_lt (by omega)
  have rest : numerator * unitsPerOne % denominator = numerator * unitsPerOne :=
    Nat.mod_eq_of_lt (by omega)
  simp only [nearestWord, roundHalfEven, below, rest, Nat.log2_zero, Nat.zero_sub, Nat.zero_mul,
    Nat.pow_zero, Nat.mul_one, if_pos (Or.inl h)]
  omega

theorem word_eq_nearestWord (decimal : Decimal) :
    decimal.word = nearestWord decimal.numerator decimal.denominator := by
  unfold word
  split
  next zero => rw [numerator, zero, Nat.zero_mul, nearestWord_zero]
  next nonzero =>
    split
    next far =>
      have flat : decimal.denominator = 1 := by
        rw [denominator, show (-decimal.exponent).toNat = 0 by omega, Nat.pow_zero]
      rw [flat, @nearestWord_of_large _ (3 * decimal.exponent.toNat) (by omega)]
      calc 2 ^ (3 * decimal.exponent.toNat) = 8 ^ decimal.exponent.toNat := by rw [Nat.pow_mul]
        _ ≤ 10 ^ decimal.exponent.toNat := Nat.pow_le_pow_left (by decide) _
        _ ≤ decimal.numerator := Nat.le_mul_of_pos_left _ (by omega)
    · split
      next near =>
        have up : decimal.numerator = decimal.digits := by
          rw [numerator, show decimal.exponent.toNat = 0 by omega, Nat.pow_zero, Nat.mul_one]
        rw [up, nearestWord_of_small]
        calc 2 * (decimal.digits * unitsPerOne)
            < 2 * (2 ^ (decimal.digits.log2 + 1) * unitsPerOne) :=
              Nat.mul_lt_mul_of_pos_left
                (Nat.mul_lt_mul_of_pos_right Nat.lt_log2_self Binary64.unitsPerOne_pos) (by decide)
          _ = 2 ^ (decimal.digits.log2 + unitExponent + 2) := by
              rw [Binary64.two_pow_mul_unitsPerOne, ← Nat.pow_succ', Nat.add_right_comm]
          _ ≤ 2 ^ (3 * (-decimal.exponent).toNat) := Nat.pow_le_pow_right (by decide) (by omega)
          _ = 8 ^ (-decimal.exponent).toNat := by rw [Nat.pow_mul]
          _ ≤ decimal.denominator := Nat.pow_le_pow_left (by decide) _
      · rfl

end Decimal
end PocketCalc
