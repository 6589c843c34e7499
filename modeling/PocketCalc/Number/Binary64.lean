/-!
# Doubles as counts of units

A finite double is a sign and a whole number of units, one unit being `2 ^ -1074`. The word of a
double is its bit pattern without the sign, so that words and magnitudes are in the same order.
`nearestWord` rounds a quotient to a word; it gives a word back for the quotient that the word
stands for. `fract` is what a double has beyond its whole number, and is no number where the double
is not finite.
-/
namespace PocketCalc.Binary64

/-- Powers of natural numbers are core's own, whatever else offers them. -/
@[default_instance 20000]
instance (priority := 20000) natPow : Pow Nat Nat := instPowNat

def unitExponent : Nat := 1074

def unitsPerOne : Nat := 2 ^ unitExponent

def infinityWord : Nat := 2047 * 2 ^ 52

/-- The units of a finite word: its fraction, with the leading one that a normal word leaves out.
-/
def unitsOfWord (word : Nat) : Nat :=
  if word < 2 ^ 52 then word
  else (2 ^ 52 + word % 2 ^ 52) * 2 ^ (word / 2 ^ 52 - 1)

inductive Parts where
  | notANumber
  | infinite (negative : Bool)
  | finite (negative : Bool) (word : Nat)
  deriving DecidableEq, Repr

def parts (value : Float) : Parts :=
  let bits := value.toBits.toNat
  let word := bits % 2 ^ 63
  let negative := decide (2 ^ 63 ≤ bits)
  if word < infinityWord then .finite negative word
  else if word = infinityWord then .infinite negative
  else .notANumber

/-- The whole number nearest to a quotient, the even one of two that are equally near. -/
def roundHalfEven (numerator denominator : Nat) : Nat :=
  let below := numerator / denominator
  let twice := 2 * (numerator % denominator)
  if twice < denominator ∨ twice = denominator ∧ below % 2 = 0 then below else below + 1

/-- The word of the double nearest to a quotient. A word counts steps of its own binade from zero,
so the binade comes in by addition and a carry out of it needs no case of its own. -/
def nearestWord (numerator denominator : Nat) : Nat :=
  let scaled := numerator * unitsPerOne
  let shift := (scaled / denominator).log2 - 52
  min (shift * 2 ^ 52 + roundHalfEven scaled (denominator * 2 ^ shift)) infinityWord

def ofWord (word : Nat) : Float :=
  Float.ofBits (UInt64.ofNat word)

def infinity : Float :=
  ofWord infinityWord

def notANumber : Float :=
  Float.ofBits 0x7FF8000000000000

/-- A double without its digits after the point, of the same sign; what is not finite stays as it
is. -/
def truncated (value : Float) : Float :=
  match parts value with
  | .finite negative word =>
    let whole := ofWord (nearestWord (unitsOfWord word / unitsPerOne) 1)
    if negative then -whole else whole
  | _ => value

def fract (value : Float) : Float :=
  value - truncated value

theorem two_pow_mul_unitsPerOne (exponent : Nat) :
    2 ^ exponent * unitsPerOne = 2 ^ (exponent + unitExponent) := by
  rw [unitsPerOne, Nat.pow_add]

theorem unitsPerOne_pos : 0 < unitsPerOne := by
  rw [unitsPerOne]
  exact Nat.two_pow_pos _

theorem roundHalfEven_mul (quotient : Nat) {denominator : Nat} (h : 0 < denominator) :
    roundHalfEven (quotient * denominator) denominator = quotient := by
  simp [roundHalfEven, Nat.mul_div_cancel _ h, h]

theorem roundHalfEven_within (numerator : Nat) {denominator : Nat} (h : 0 < denominator) :
    2 * numerator ≤ 2 * (roundHalfEven numerator denominator * denominator) + denominator ∧
      2 * (roundHalfEven numerator denominator * denominator) ≤ 2 * numerator + denominator := by
  have split := Nat.div_add_mod numerator denominator
  have small := Nat.mod_lt numerator h
  rw [Nat.mul_comm] at split
  unfold roundHalfEven
  dsimp only
  split
  · omega
  · rw [Nat.add_mul]
    omega

theorem log2_unitsOfWord_sub {word : Nat} (h : ¬ word < 2 ^ 52) :
    (unitsOfWord word).log2 - 52 = word / 2 ^ 52 - 1 := by
  have step := Nat.two_pow_pos (word / 2 ^ 52 - 1)
  have size : ((2 ^ 52 + word % 2 ^ 52) * 2 ^ (word / 2 ^ 52 - 1)).log2 =
      52 + (word / 2 ^ 52 - 1) := by
    rw [Nat.log2_eq_iff (Nat.mul_ne_zero (by omega) (by omega))]
    constructor
    · rw [Nat.pow_add]
      exact Nat.mul_le_mul_right _ (by omega)
    · rw [Nat.add_right_comm, Nat.pow_add]
      exact Nat.mul_lt_mul_of_pos_right (by omega) step
  rw [unitsOfWord, if_neg h, size]
  omega

/-- Rounding undoes reading: the quotient that a finite word stands for has that word. -/
theorem nearestWord_of_units {numerator denominator word : Nat} (positive : 0 < denominator)
    (finite : word < infinityWord)
    (exact : numerator * unitsPerOne = unitsOfWord word * denominator) :
    nearestWord numerator denominator = word := by
  have whole : unitsOfWord word * denominator / denominator = unitsOfWord word :=
    Nat.mul_div_cancel _ positive
  unfold nearestWord
  simp only [exact, whole]
  by_cases small : word < 2 ^ 52
  · have shift : (unitsOfWord word).log2 - 52 = 0 := by
      rw [unitsOfWord, if_pos small]
      by_cases zero : word = 0
      · subst zero
        rfl
      · have := (Nat.log2_lt zero).mpr small
        omega
    rw [shift, Nat.pow_zero, Nat.mul_one, roundHalfEven_mul _ positive, unitsOfWord, if_pos small]
    omega
  · rw [log2_unitsOfWord_sub small]
    have shifted : unitsOfWord word * denominator =
        (2 ^ 52 + word % 2 ^ 52) * (denominator * 2 ^ (word / 2 ^ 52 - 1)) := by
      rw [unitsOfWord, if_neg small, Nat.mul_assoc, Nat.mul_comm (2 ^ _) denominator]
    rw [shifted, roundHalfEven_mul _ (Nat.mul_pos positive (Nat.two_pow_pos _))]
    have := Nat.div_add_mod word (2 ^ 52)
    have : 1 ≤ word / 2 ^ 52 := Nat.le_div_iff_mul_le (by decide) |>.mpr (by omega)
    omega

end PocketCalc.Binary64
