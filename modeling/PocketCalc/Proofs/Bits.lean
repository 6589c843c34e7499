import Mathlib
import PocketCalc.Number.Binary64

/-!
# Doubles from their parts

The parts of a double determine it: a magnitude is the double of its word, a negative one is the
negation of its magnitude, and there is one double that is no number. The arithmetic model of a
double decodes its fields and encodes them again; this keeps all bit patterns but those of no
number, and negation flips the bit of the sign and nothing else.
-/
namespace PocketCalc.Binary64

open Float.Model (Format UnpackedFloat)
open Float.Model.UnpackedFloat

theorem toNat_unpackMantissa (bits : BitVec 64) :
    (@unpackMantissa Format.binary64 bits).toNat = bits.toNat % 2 ^ 52 := by
  rw [unpackMantissa_def, BitVec.extractLsb'_toNat]
  rfl

theorem toNat_unpackExponent (bits : BitVec 64) :
    (@unpackExponent Format.binary64 bits).toNat = bits.toNat / 2 ^ 52 % 2 ^ 11 := by
  rw [unpackExponent_def, BitVec.extractLsb'_toNat, Nat.shiftRight_eq_div_pow]

theorem toNat_unpackSign (bits : BitVec 64) :
    (Sign.ofBitVec (@unpackSign Format.binary64 bits)).toBitVec.toNat = bits.toNat / 2 ^ 63 := by
  have small := bits.isLt
  rw [Sign.toBitVec_ofBitVec, unpackSign_def, BitVec.extractLsb'_toNat, Nat.shiftRight_eq_div_pow]
  show bits.toNat / 2 ^ 63 % 2 = _
  omega

/-- Bit patterns up to infinity are those that stand for a number or an infinity. -/
theorem isNaNBits_iff (bits : BitVec 64) :
    @isNaNBits Format.binary64 bits = true ↔ infinityWord < bits.toNat % 2 ^ 63 := by
  have mantissa := toNat_unpackMantissa bits
  have exponent := toNat_unpackExponent bits
  have top : @unpackExponent Format.binary64 bits = -1#_ ↔
      (@unpackExponent Format.binary64 bits).toNat = 2047 :=
    BitVec.toNat_inj.symm
  have none : @unpackMantissa Format.binary64 bits = 0#_ ↔
      (@unpackMantissa Format.binary64 bits).toNat = 0 :=
    BitVec.toNat_inj.symm
  unfold isNaNBits infinityWord
  rw [decide_eq_true_eq, ne_eq, top, none, mantissa, exponent]
  omega

theorem pack_unpack_of_le {bits : BitVec 64} (h : bits.toNat % 2 ^ 63 ≤ infinityWord) :
    UnpackedFloat.pack Format.binary64 (unpack Format.binary64 bits) = bits := by
  rw [@pack_unpack Format.binary64 bits (by decide), if_neg]
  rw [isNaNBits_iff]
  omega

theorem toNat_toBits_ofWord {word : Nat} (h : word ≤ infinityWord) :
    (ofWord word).toBits.toNat = word := by
  have exact : (UInt64.ofNat word).toBitVec.toNat = word := by
    unfold infinityWord at h
    show (UInt64.ofNat word).toNat = word
    rw [UInt64.toNat_ofNat']
    omega
  have same : (ofWord word).toBits.toBitVec = (UInt64.ofNat word).toBitVec := by
    refine pack_unpack_of_le ?_
    rw [exact]
    exact Nat.le_trans (Nat.mod_le _ _) h
  exact (congrArg BitVec.toNat same).trans exact

theorem parts_ofWord {word : Nat} (h : word < infinityWord) :
    parts (ofWord word) = .finite false word := by
  unfold parts
  rw [toNat_toBits_ofWord (Nat.le_of_lt h)]
  unfold infinityWord at *
  dsimp only
  rw [Nat.mod_eq_of_lt (by omega), if_pos h, decide_eq_false (by omega)]

/-- The double that has these parts. -/
def ofParts : Parts → Float
  | .notANumber => notANumber
  | .infinite false => infinity
  | .infinite true => -infinity
  | .finite false word => ofWord word
  | .finite true word => -(ofWord word)

theorem eq_of_toNat_toBits {value value' : Float}
    (same : value.toBits.toNat = value'.toBits.toNat) : value = value' :=
  Float.toBits_inj.mp (UInt64.toNat_inj.mp same)

/-- Bit patterns that differ in the sign alone stand for opposite numbers. -/
theorem unpack_eq_neg {bits flipped : BitVec 64}
    (mantissa : @unpackMantissa Format.binary64 flipped = @unpackMantissa Format.binary64 bits)
    (exponent : @unpackExponent Format.binary64 flipped = @unpackExponent Format.binary64 bits)
    (sign : Sign.ofBitVec (@unpackSign Format.binary64 flipped) =
      -Sign.ofBitVec (@unpackSign Format.binary64 bits)) :
    unpack Format.binary64 flipped = (unpack Format.binary64 bits).neg := by
  unfold unpack
  simp only [mantissa, exponent, sign]
  split
  · split <;> rfl
  · split
    · split <;> rfl
    · rfl

theorem sign_of_toNat {sign : Sign} {bit : Nat} (h : sign.toBitVec.toNat = bit) :
    sign = if bit = 0 then .positive else .negative := by
  subst h
  cases sign <;> rfl

/-- Negation flips the bit of the sign of a number or an infinity. -/
theorem toNat_toBits_neg {value : Float} (h : value.toBits.toNat % 2 ^ 63 ≤ infinityWord) :
    (-value).toBits.toNat = (value.toBits.toNat + 2 ^ 63) % 2 ^ 64 := by
  let bits : BitVec 64 := value.toBits.toBitVec
  let flipped : BitVec 64 := BitVec.ofNat 64 (bits.toNat + 2 ^ 63)
  have bound : bits.toNat < 2 ^ 64 := bits.isLt
  have signed : flipped.toNat = (bits.toNat + 2 ^ 63) % 2 ^ 64 := BitVec.toNat_ofNat _ _
  have mantissa : @unpackMantissa Format.binary64 flipped =
      @unpackMantissa Format.binary64 bits := by
    apply BitVec.eq_of_toNat_eq
    rw [toNat_unpackMantissa, toNat_unpackMantissa, signed]
    omega
  have exponent : @unpackExponent Format.binary64 flipped =
      @unpackExponent Format.binary64 bits := by
    apply BitVec.eq_of_toNat_eq
    rw [toNat_unpackExponent, toNat_unpackExponent, signed]
    omega
  have sign : Sign.ofBitVec (@unpackSign Format.binary64 flipped) =
      -Sign.ofBitVec (@unpackSign Format.binary64 bits) := by
    rw [sign_of_toNat (toNat_unpackSign bits), sign_of_toNat (toNat_unpackSign flipped), signed]
    by_cases positive : bits.toNat < 2 ^ 63
    · rw [if_neg (by omega), if_pos (by omega)]
      rfl
    · rw [if_pos (by omega), if_neg (by omega)]
      rfl
  have packed : (-value).toBits.toBitVec =
      UnpackedFloat.pack Format.binary64 (unpack Format.binary64 bits).neg := rfl
  have opposite : (-value).toBits.toBitVec = flipped := by
    rw [packed, ← unpack_eq_neg mantissa exponent sign]
    apply pack_unpack_of_le
    rw [signed]
    change bits.toNat % 2 ^ 63 ≤ infinityWord at h
    omega
  exact (congrArg BitVec.toNat opposite).trans signed

theorem toNat_toBits_neg_ofWord {word : Nat} (h : word ≤ infinityWord) :
    (-(ofWord word)).toBits.toNat = 2 ^ 63 + word := by
  have small : word < 2 ^ 63 := Nat.lt_of_le_of_lt h (by decide)
  have plain := toNat_toBits_ofWord h
  rw [toNat_toBits_neg (by omega), plain]
  omega

/-- There is one double that is no number. -/
theorem eq_notANumber {value : Float} (h : infinityWord < value.toBits.toNat % 2 ^ 63) :
    value = notANumber := by
  have canonical (value : Float) (large : infinityWord < value.toBits.toNat % 2 ^ 63) :
      value.toBits.toBitVec = packedNaN Format.binary64 := by
    have nan := (isNaNBits_iff value.toBits.toBitVec).mpr large
    obtain ⟨top, some⟩ := of_decide_eq_true nan
    exact value.toModel.valid.eq_packedNaN top some
  have same : value.toBits.toBitVec = notANumber.toBits.toBitVec :=
    (canonical value h).trans (canonical notANumber (by decide)).symm
  exact eq_of_toNat_toBits (congrArg BitVec.toNat same)

/-- A double that is no number is its own negation, and every other is negated back. -/
theorem neg_neg (value : Float) : - -value = value := by
  have bound : value.toBits.toNat < 2 ^ 64 := value.toBits.toNat_lt
  by_cases number : value.toBits.toNat % 2 ^ 63 ≤ infinityWord
  · have once := toNat_toBits_neg number
    apply eq_of_toNat_toBits
    rw [toNat_toBits_neg (by omega), once]
    omega
  · have none : value = notANumber := eq_notANumber (Nat.lt_of_not_le number)
    subst none
    apply eq_of_toNat_toBits
    decide +kernel

theorem ofParts_parts (value : Float) : ofParts (parts value) = value := by
  have bound := value.toBits.toBitVec.isLt
  change value.toBits.toNat < 2 ^ 64 at bound
  unfold parts
  dsimp only
  split
  next finite =>
    by_cases negative : 2 ^ 63 ≤ value.toBits.toNat
    · rw [decide_eq_true negative, ofParts]
      refine eq_of_toNat_toBits ?_
      rw [toNat_toBits_neg_ofWord (Nat.le_of_lt finite)]
      omega
    · rw [decide_eq_false negative, ofParts]
      refine eq_of_toNat_toBits ?_
      rw [toNat_toBits_ofWord (Nat.le_of_lt finite)]
      omega
  next large =>
    split
    next infinite =>
      by_cases negative : 2 ^ 63 ≤ value.toBits.toNat
      · rw [decide_eq_true negative, ofParts, infinity]
        refine eq_of_toNat_toBits ?_
        rw [toNat_toBits_neg_ofWord (Nat.le_refl _)]
        omega
      · rw [decide_eq_false negative, ofParts, infinity]
        refine eq_of_toNat_toBits ?_
        rw [toNat_toBits_ofWord (Nat.le_refl _)]
        omega
    next other => exact (eq_notANumber (by omega)).symm

end PocketCalc.Binary64
