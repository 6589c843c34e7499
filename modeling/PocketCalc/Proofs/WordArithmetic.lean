import PocketCalc.Proofs.Rounding

/-!
# Arithmetic on words

A double from one upward is unpacked to a mantissa of 53 bits and an exponent. A product or a
difference is formed exactly, shifted to that size with a record of the bits that are lost, and
rounded. The result is the word nearest to the exact quotient.
-/
namespace PocketCalc.Binary64

open Float.Model (Format UnpackedFloat totalExponent)
open Float.Model.UnpackedFloat

/-- The bits that shifts have taken from a whole number: they are its remainder, and the two
residual bits say where the remainder lies between nothing, a half and a whole step. -/
structure Shifted (extended : ExtendedMantissa) (whole step rest : Nat) : Prop where
  split : whole = extended.mantissa * step + rest
  below : rest < step
  round : extended.roundBit = true ↔ step ≤ 2 * rest
  sticky : extended.stickyBit = true ↔ rest ≠ 0 ∧ 2 * rest ≠ step

theorem Shifted.shiftRightOne {extended : ExtendedMantissa} {whole step rest : Nat}
    (h : Shifted extended whole step rest) :
    Shifted extended.shiftRightOne whole (step * 2) (extended.mantissa % 2 * step + rest) := by
  obtain ⟨split, below, round, sticky⟩ := h
  have halves := Nat.div_add_mod extended.mantissa 2
  have regrouped : extended.mantissa / 2 * (step * 2) + (extended.mantissa % 2 * step + rest) =
      (2 * (extended.mantissa / 2) + extended.mantissa % 2) * step + rest := by ring
  have lost : (extended.roundBit || extended.stickyBit) = true ↔ rest ≠ 0 := by
    rw [Bool.or_eq_true, round, sticky]
    omega
  refine ⟨?_, ?_, ?_, ?_⟩
  · show whole = extended.mantissa / 2 * (step * 2) + (extended.mantissa % 2 * step + rest)
    rw [regrouped, halves, split]
  all_goals rcases Nat.mod_two_eq_zero_or_one extended.mantissa with even | odd
  · rw [even]
    omega
  · rw [odd]
    omega
  · simp only [ExtendedMantissa.shiftRightOne, even]
    simp
    omega
  · simp only [ExtendedMantissa.shiftRightOne, odd]
    simp
    omega
  · simp only [ExtendedMantissa.shiftRightOne, lost, even]
    omega
  · simp only [ExtendedMantissa.shiftRightOne, lost, odd]
    omega

theorem exists_shifted (mantissa shift : Nat) :
    ∃ rest, Shifted (ExtendedMantissa.ofMantissaAndAccuracy mantissa .exact >>> shift)
      mantissa (2 ^ shift) rest := by
  induction shift with
  | zero =>
    refine ⟨0, ?_, Nat.one_pos, ?_, ?_⟩
    · exact (Nat.mul_one mantissa).symm
    · exact iff_of_false Bool.false_ne_true (by decide)
    · exact iff_of_false Bool.false_ne_true (by simp)
  | succ shift ih =>
    obtain ⟨rest, shifted⟩ := ih
    exact ⟨_, shifted.shiftRightOne⟩

theorem Shifted.quotient {extended : ExtendedMantissa} {whole step rest : Nat}
    (h : Shifted extended whole step rest) : whole / step = extended.mantissa := by
  have positive : 0 < step := Nat.lt_of_le_of_lt (Nat.zero_le _) h.below
  rw [h.split, Nat.mul_comm, Nat.mul_add_div positive, Nat.div_eq_of_lt h.below, Nat.add_zero]

theorem Shifted.roundedMantissa {extended : ExtendedMantissa} {whole step rest : Nat}
    (h : Shifted extended whole step rest) :
    extended.roundedMantissa = roundHalfEven whole step := by
  have remainder : whole % step = rest := by
    rw [h.split, Nat.mul_comm, Nat.mul_add_mod, Nat.mod_eq_of_lt h.below]
  unfold roundHalfEven
  rw [h.quotient, remainder]
  obtain ⟨-, below, round, sticky⟩ := h
  obtain ⟨mantissa, roundBit, stickyBit⟩ := extended
  dsimp only at round sticky ⊢
  cases roundBit <;> cases stickyBit
  all_goals
    simp only [ExtendedMantissa.roundedMantissa, ExtendedMantissa.accuracy,
      Accuracy.roundToNearestEven]
    simp only [Bool.false_eq_true, false_iff, true_iff] at round sticky
    split <;> omega

theorem roundedMantissa_shiftRight (mantissa shift : Nat) :
    (ExtendedMantissa.ofMantissaAndAccuracy mantissa .exact >>> shift).roundedMantissa =
      roundHalfEven mantissa (2 ^ shift) := by
  obtain ⟨rest, shifted⟩ := exists_shifted mantissa shift
  exact shifted.roundedMantissa

theorem mantissa_shiftRight (mantissa shift : Nat) :
    (ExtendedMantissa.ofMantissaAndAccuracy mantissa .exact >>> shift).mantissa =
      mantissa / 2 ^ shift := by
  obtain ⟨rest, shifted⟩ := exists_shifted mantissa shift
  exact shifted.quotient.symm

theorem toNat_append {width width' : Nat} (high : BitVec width) (low : BitVec width') :
    (high ++ low).toNat = high.toNat * 2 ^ width' + low.toNat := by
  rw [BitVec.toNat_append, ← Nat.shiftLeft_add_eq_or_of_lt low.isLt, Nat.shiftLeft_eq]

theorem toNat_packComponents (exponent : BitVec 11) (mantissa : BitVec 52) :
    (packComponents Format.binary64 .positive exponent mantissa).toNat =
      exponent.toNat * 2 ^ 52 + mantissa.toNat := by
  show (0#1 ++ exponent ++ mantissa).toNat = _
  rw [toNat_append, toNat_append, BitVec.toNat_ofNat, Nat.zero_mod, Nat.zero_mul, Nat.zero_add]

/-- A mantissa of 53 bits counts the steps of its binade from the one below on, so that the word
is had by addition; past the last binade it is the word of infinity. -/
theorem toNat_pack {mantissa biased : Nat} {exponent : Int} (positive : 0 < mantissa)
    (wide : 2 ^ 52 ≤ mantissa) (narrow : mantissa < 2 ^ 53) (bias : exponent + 1074 = biased) :
    (UnpackedFloat.pack Format.binary64 (.finite .positive mantissa exponent positive)).toNat =
      min (biased * 2 ^ 52 + mantissa) infinityWord := by
  have size : mantissa.log2 = 52 :=
    (Nat.log2_eq_iff (Nat.ne_of_gt positive)).mpr ⟨wide, narrow⟩
  have field : (exponent + (Format.exponentBias Format.binary64 : Nat) + (52 : Nat)).toNat =
      biased + 1 := by
    show (exponent + (1023 : Nat) + (52 : Nat)).toNat = _
    omega
  unfold UnpackedFloat.pack
  dsimp only
  rw [field, size]
  by_cases overflow : 2046 ≤ biased
  · have infinite : (packedInfinity Format.binary64 .positive).toNat = infinityWord := by decide
    rw [if_pos (show 2 ^ 11 ≤ biased + 1 + 1 by omega), infinite]
    unfold infinityWord
    omega
  · rw [if_neg (show ¬ 2 ^ 11 ≤ biased + 1 + 1 by omega), if_pos (by decide),
      toNat_packComponents, BitVec.toNat_ofNat, BitVec.toNat_ofNat]
    unfold infinityWord
    omega

theorem totalExponent_sub (mantissa : Nat) (exponent : Int) :
    totalExponent mantissa exponent - (Format.mantissaBits Format.binary64 : Nat) =
      mantissa.log2 - 52 + exponent := by
  show (mantissa.log2 + 1 + exponent) - ((53 : Nat) : Int) = _
  omega

/-- A mantissa is shifted by the bits that it has beyond 53. -/
theorem shiftToTargetExponent_of_le {mantissa : Nat} {exponent : Int} (wide : 2 ^ 52 ≤ mantissa)
    (range : -1074 ≤ exponent) :
    shiftToTargetExponent Format.binary64 mantissa exponent .exact =
      (ExtendedMantissa.ofMantissaAndAccuracy mantissa .exact >>> (mantissa.log2 - 52),
        exponent + (mantissa.log2 - 52 : Nat)) := by
  have size := le_log2_of_wide wide
  have least : Format.minExponent Format.binary64 = -1074 := by decide
  have amount : (Format.targetExponent Format.binary64 (totalExponent mantissa exponent) -
      exponent).toNat = mantissa.log2 - 52 := by
    rw [Format.targetExponent, totalExponent_sub, least]
    omega
  unfold shiftToTargetExponent shiftToExponent
  dsimp only
  rw [amount]

/-- A carry out of the 53 bits makes the mantissa the least of the next binade, where one more
shift loses nothing. -/
theorem toNat_pack_roundWithAccuracy {mantissa biased : Nat} {exponent : Int}
    (wide : 2 ^ 52 ≤ mantissa) (bias : exponent + 1074 = biased) :
    (UnpackedFloat.pack Format.binary64
        (roundWithAccuracy Format.binary64 .positive mantissa exponent .exact)).toNat =
      min ((mantissa.log2 - 52 + biased) * 2 ^ 52 +
        roundHalfEven mantissa (2 ^ (mantissa.log2 - 52))) infinityWord := by
  obtain ⟨above, below⟩ := roundHalfEven_of_wide wide
  unfold roundWithAccuracy
  rw [shiftToTargetExponent_of_le wide (by omega)]
  dsimp only
  rw [roundedMantissa_shiftRight]
  generalize roundHalfEven mantissa (2 ^ (mantissa.log2 - 52)) = rounded at *
  rw [shiftToTargetExponent_of_le above (by omega)]
  dsimp only
  simp only [mantissa_shiftRight]
  have last : 2 ^ 52 ≤ rounded / 2 ^ (rounded.log2 - 52) ∧
      rounded / 2 ^ (rounded.log2 - 52) < 2 ^ 53 ∧
      (rounded.log2 - 52) * 2 ^ 52 + rounded / 2 ^ (rounded.log2 - 52) = rounded := by
    by_cases carry : rounded = 2 ^ 53
    · rw [carry]
      decide
    · have same : rounded.log2 - 52 = 0 := by
        have := (Nat.log2_lt (by omega)).mpr (Nat.lt_of_le_of_ne below carry)
        omega
      rw [same, Nat.pow_zero, Nat.div_one]
      omega
  obtain ⟨wide', narrow', word⟩ := last
  have field : exponent + (mantissa.log2 - 52 : Nat) + (rounded.log2 - 52 : Nat) + 1074 =
      (mantissa.log2 - 52 + biased + (rounded.log2 - 52) : Nat) := by omega
  rw [dif_neg (by omega), toNat_pack (by omega) wide' narrow' field]
  omega

/-- An exact result that is not below the normal numbers is rounded to the word nearest to it. -/
theorem toNat_pack_rounded {mantissa up down : Nat} (wide : 2 ^ 52 ≤ mantissa)
    (range : down ≤ up + 1074) :
    (UnpackedFloat.pack Format.binary64
        (roundWithAccuracy Format.binary64 .positive mantissa (up - down) .exact)).toNat =
      nearestWord (mantissa * 2 ^ up) (2 ^ down) := by
  obtain ⟨biased, bias⟩ : ∃ biased, up + 1074 = down + biased := Nat.exists_eq_add_of_le range
  have field : (up - down : Int) + 1074 = biased := by omega
  rw [toNat_pack_roundWithAccuracy wide field, nearestWord_of_wide wide bias]

theorem eq_ofWord {value : Float} {word : Nat} (finite : word ≤ infinityWord)
    (h : value.toBits.toNat = word) : value = ofWord word :=
  eq_of_toNat_toBits (h.trans (toNat_toBits_ofWord finite).symm)

theorem unpackExponent_ne_top {bits : BitVec 64} (finite : bits.toNat % 2 ^ 63 < infinityWord) :
    @unpackExponent Format.binary64 bits ≠ -1#_ := by
  intro top
  have field := congrArg BitVec.toNat top
  rw [toNat_unpackExponent] at field
  change _ = 2047 at field
  unfold infinityWord at finite
  omega

theorem toNat_leading_append {width : Nat} (fraction : BitVec width) :
    (1#1 ++ fraction).toNat = 2 ^ width + fraction.toNat := by
  have leading : (1#1).toNat = 1 := rfl
  rw [toNat_append, leading, Nat.one_mul]

/-- The mantissa of a word: its fraction, with the leading one that a normal word leaves out. -/
def mantissaOfWord (word : Nat) : Nat :=
  if word < 2 ^ 52 then word else 2 ^ 52 + word % 2 ^ 52

theorem unitsOfWord_eq (word : Nat) :
    unitsOfWord word = mantissaOfWord word * 2 ^ (word / 2 ^ 52 - 1) := by
  unfold unitsOfWord mantissaOfWord
  split
  next low => rw [Nat.div_eq_of_lt low, Nat.zero_sub, Nat.pow_zero, Nat.mul_one]
  next high => rfl

theorem mantissaOfWord_of_normal {word : Nat} (normal : 2 ^ 52 ≤ word) :
    mantissaOfWord word = 2 ^ 52 + word % 2 ^ 52 :=
  if_neg (Nat.not_lt.mpr normal)

theorem unpack_ofWord {word : Nat} (nonzero : word ≠ 0) (finite : word < infinityWord) :
    ∃ positive, (ofWord word).toModel.unpack =
      .finite .positive (mantissaOfWord word) ((word / 2 ^ 52 - 1 : Nat) - (1074 : Nat))
        positive := by
  have small : word < 2 ^ 63 := Nat.lt_trans finite (by decide)
  have bits : (ofWord word).toBits.toBitVec.toNat = word :=
    toNat_toBits_ofWord (Nat.le_of_lt finite)
  have unsigned := sign_of_toNat (toNat_unpackSign (ofWord word).toBits.toBitVec)
  have exponent := toNat_unpackExponent (ofWord word).toBits.toBitVec
  have mantissa := toNat_unpackMantissa (ofWord word).toBits.toBitVec
  have top : @unpackExponent Format.binary64 (ofWord word).toBits.toBitVec ≠ -1#_ :=
    unpackExponent_ne_top (by rwa [bits, Nat.mod_eq_of_lt small])
  rw [bits] at unsigned exponent mantissa
  rw [if_pos (by omega)] at unsigned
  rw [Nat.mod_eq_of_lt (by unfold infinityWord at finite; omega)] at exponent
  have bias : Format.exponentBias Format.binary64 = 1023 := by decide
  show ∃ positive, UnpackedFloat.unpack Format.binary64 (ofWord word).toBits.toBitVec = _
  unfold UnpackedFloat.unpack mantissaOfWord
  dsimp only
  simp only [if_neg top]
  by_cases low : word < 2 ^ 52
  · have bottom : @unpackExponent Format.binary64 (ofWord word).toBits.toBitVec = 0#_ := by
      apply BitVec.eq_of_toNat_eq
      rw [exponent, Nat.div_eq_of_lt low]
      rfl
    have some : @unpackMantissa Format.binary64 (ofWord word).toBits.toBitVec ≠ 0#_ := by
      intro none
      rw [none] at mantissa
      change 0 = _ at mantissa
      omega
    simp only [if_pos bottom, dif_neg some, if_pos low, exponent, mantissa, unsigned, bias,
      UnpackedFloat.finite.injEq]
    exact ⟨by omega, trivial, by omega, by omega⟩
  · have bottom : @unpackExponent Format.binary64 (ofWord word).toBits.toBitVec ≠ 0#_ := by
      intro none
      rw [none] at exponent
      change 0 = _ at exponent
      omega
    simp only [if_neg bottom, if_neg low, toNat_leading_append, exponent, mantissa, unsigned, bias,
      UnpackedFloat.finite.injEq]
    exact ⟨by omega, trivial, trivial, by omega⟩

/-- A finite double that is not zero is unpacked with the sign of its bits. -/
theorem exists_unpack_finite (bits : BitVec 64) (finite : bits.toNat % 2 ^ 63 < infinityWord)
    (nonzero : bits.toNat % 2 ^ 63 ≠ 0) :
    ∃ mantissa exponent positive, UnpackedFloat.unpack Format.binary64 bits =
      .finite (if bits.toNat / 2 ^ 63 = 0 then .positive else .negative) mantissa exponent
        positive := by
  have field := toNat_unpackExponent bits
  have fraction := toNat_unpackMantissa bits
  rw [← sign_of_toNat (toNat_unpackSign bits)]
  unfold UnpackedFloat.unpack
  dsimp only
  rw [if_neg (unpackExponent_ne_top finite)]
  split
  next low =>
    rw [low] at field
    change 0 = _ at field
    have positive : 0 < (@unpackMantissa Format.binary64 bits).toNat := by
      rw [fraction]
      omega
    have some : @unpackMantissa Format.binary64 bits ≠ 0#_ := by
      intro none
      rw [none] at positive
      exact absurd positive (by decide)
    rw [dif_neg some]
    exact ⟨_, _, positive, rfl⟩
  next high =>
    have positive : 0 < (1#1 ++ @unpackMantissa Format.binary64 bits).toNat := by
      rw [toNat_leading_append]
      omega
    exact ⟨_, _, positive, rfl⟩

theorem lt_iff_compare (value value' : Float) : value < value' ↔
    value.toModel.unpack.compare value'.toModel.unpack = some .lt := by
  show decide (UnpackedFloat.lt value.toModel.unpack value'.toModel.unpack = true) = true ↔ _
  rw [decide_eq_true_eq, UnpackedFloat.lt, beq_iff_eq]

/-- A finite double below zero is one of a negative sign, zero apart. -/
theorem neg_ofWord_lt_zero {word : Nat} (finite : word < infinityWord) (nonzero : word ≠ 0) :
    -(ofWord word) < 0 := by
  have bits : (-(ofWord word)).toBits.toBitVec.toNat = 2 ^ 63 + word :=
    toNat_toBits_neg_ofWord (Nat.le_of_lt finite)
  have small : word < 2 ^ 63 := Nat.lt_trans finite (by decide)
  have magnitude : (2 ^ 63 + word) % 2 ^ 63 = word := by omega
  obtain ⟨mantissa, exponent, positive, unpacked⟩ :=
    exists_unpack_finite (-(ofWord word)).toBits.toBitVec (by rwa [bits, magnitude])
      (by rwa [bits, magnitude])
  rw [bits, if_neg (by omega)] at unpacked
  rw [lt_iff_compare]
  change (-(ofWord word)).toModel.unpack = _ at unpacked
  rw [unpacked]
  rfl

/-- The word of one. -/
def oneWord : Nat := 1023 * 2 ^ 52

theorem ofWord_oneWord : ofWord oneWord = 1 :=
  rfl

theorem unpack_one : ∃ positive, (1 : Float).toModel.unpack =
    .finite .positive (2 ^ 52) (-52) positive := by
  have unpacked := unpack_ofWord (show oneWord ≠ 0 by decide) (by decide)
  rwa [ofWord_oneWord] at unpacked

theorem one_lt_ofWord_iff {word : Nat} (large : oneWord ≤ word) (finite : word < infinityWord) :
    1 < ofWord word ↔ oneWord < word := by
  obtain ⟨_, one⟩ := unpack_one
  have normal : 2 ^ 52 ≤ word := Nat.le_trans (by decide) large
  obtain ⟨_, unpacked⟩ := unpack_ofWord (by omega) finite
  rw [lt_iff_compare, one, unpacked]
  unfold UnpackedFloat.compare
  rw [Option.some_inj, Ordering.then_eq_lt, Int.compare_eq_lt, Int.compare_eq_eq,
    Nat.compare_eq_lt, mantissaOfWord_of_normal normal]
  unfold oneWord at *
  omega

theorem isFinite_ofWord {word : Nat} (nonzero : word ≠ 0) (finite : word < infinityWord) :
    (ofWord word).isFinite = true := by
  obtain ⟨_, unpacked⟩ := unpack_ofWord nonzero finite
  show (ofWord word).toModel.unpack.isFinite = true
  rw [unpacked]
  rfl

theorem not_isFinite_infinity : infinity.isFinite = false :=
  rfl

/-- A product of two doubles from one upward is the word nearest to the exact product. -/
theorem ofWord_mul {word word' : Nat} (large : oneWord ≤ word) (finite : word < infinityWord)
    (large' : oneWord ≤ word') (finite' : word' < infinityWord) :
    ofWord word * ofWord word' =
      ofWord (nearestWord (unitsOfWord word * unitsOfWord word') (unitsPerOne * unitsPerOne)) := by
  have normal : 2 ^ 52 ≤ word := Nat.le_trans (by decide) large
  have normal' : 2 ^ 52 ≤ word' := Nat.le_trans (by decide) large'
  obtain ⟨_, unpacked⟩ := unpack_ofWord (by omega) finite
  obtain ⟨_, unpacked'⟩ := unpack_ofWord (by omega) finite'
  refine eq_ofWord (nearestWord_le _ _) ?_
  show (UnpackedFloat.pack Format.binary64 (UnpackedFloat.mul Format.binary64
    (ofWord word).toModel.unpack (ofWord word').toModel.unpack)).toNat = _
  rw [unpacked, unpacked', unitsOfWord_eq word, unitsOfWord_eq word']
  have exponents : ((word / 2 ^ 52 - 1 : Nat) - (1074 : Nat) : Int) +
      ((word' / 2 ^ 52 - 1 : Nat) - (1074 : Nat)) =
        ((word / 2 ^ 52 - 1 + (word' / 2 ^ 52 - 1) : Nat) : Int) -
          (unitExponent + unitExponent : Nat) := by
    unfold unitExponent
    omega
  have wide : 2 ^ 52 ≤ mantissaOfWord word * mantissaOfWord word' := by
    rw [mantissaOfWord_of_normal normal, mantissaOfWord_of_normal normal']
    exact Nat.le_trans (Nat.le_add_right _ _) (Nat.le_mul_of_pos_right _ (by omega))
  have range : unitExponent + unitExponent ≤
      word / 2 ^ 52 - 1 + (word' / 2 ^ 52 - 1) + 1074 := by
    unfold oneWord at large large'
    unfold unitExponent
    omega
  show (UnpackedFloat.pack Format.binary64 (roundWithAccuracy Format.binary64 .positive
    (mantissaOfWord word * mantissaOfWord word') _ .exact)).toNat = _
  rw [exponents, toNat_pack_rounded wide range, unitsPerOne, ← Nat.pow_add, Nat.mul_mul_mul_comm,
    ← Nat.pow_add]

/-- A mantissa below 53 bits at the least exponent is its own word. -/
theorem toNat_pack_subnormal {mantissa : Nat} (positive : 0 < mantissa)
    (small : mantissa < 2 ^ 52) :
    (UnpackedFloat.pack Format.binary64
      (roundWithAccuracy Format.binary64 .positive mantissa (-1074) .exact)).toNat = mantissa := by
  have size : mantissa.log2 < 52 := (Nat.log2_lt (Nat.ne_of_gt positive)).mpr small
  have least : Format.minExponent Format.binary64 = -1074 := by decide
  have stays : shiftToTargetExponent Format.binary64 mantissa (-1074) .exact =
      (ExtendedMantissa.ofMantissaAndAccuracy mantissa .exact >>> 0, -1074) := by
    have amount : (Format.targetExponent Format.binary64 (totalExponent mantissa (-1074)) -
        -1074).toNat = 0 := by
      rw [Format.targetExponent, totalExponent_sub, least]
      omega
    unfold shiftToTargetExponent shiftToExponent
    dsimp only
    rw [amount]
    rfl
  have whole : roundHalfEven mantissa (2 ^ 0) = mantissa := by
    simpa using roundHalfEven_mul mantissa Nat.one_pos
  unfold roundWithAccuracy
  rw [stays]
  dsimp only
  rw [roundedMantissa_shiftRight, whole, stays]
  dsimp only
  simp only [mantissa_shiftRight, Nat.pow_zero, Nat.div_one]
  have narrow : ¬ mantissa.log2 + 1 = Format.mantissaBits Format.binary64 := by
    show ¬ mantissa.log2 + 1 = 53
    omega
  rw [dif_neg (Nat.ne_of_gt positive)]
  unfold UnpackedFloat.pack
  dsimp only
  rw [if_neg (by decide), if_neg narrow, toNat_packComponents, BitVec.toNat_ofNat,
    BitVec.toNat_ofNat]
  omega

/-- A mantissa below 53 bits is shifted up to that size, or down to the least exponent. -/
theorem normalize_eq {mantissa : Nat} (positive : 0 < mantissa) (shift : Nat) (zeroSign : Sign) :
    let up := min (52 - mantissa.log2) shift
    UnpackedFloat.normalize Format.binary64 mantissa (shift - (1074 : Nat)) zeroSign =
      roundWithAccuracy Format.binary64 .positive (mantissa * 2 ^ up)
        ((shift - up : Nat) - (1074 : Nat)) .exact := by
  intro up
  have above : compare (mantissa : Int) 0 = .gt := Int.compare_eq_gt.mpr (by omega)
  have least : Format.minExponent Format.binary64 = -1074 := by decide
  have amount : ((shift - (1074 : Nat) : Int) - Format.targetExponent Format.binary64
      (totalExponent mantissa (shift - (1074 : Nat)))).toNat = up := by
    rw [Format.targetExponent, totalExponent_sub, least]
    omega
  have exponent : (shift - (1074 : Nat) : Int) - (up : Nat) =
      (shift - up : Nat) - (1074 : Nat) := by omega
  unfold UnpackedFloat.normalize
  rw [above]
  unfold UnpackedFloat.round decreaseExponent
  dsimp only [Int.toNat_natCast]
  rw [amount, Nat.shiftLeft_eq, exponent]

/-- A normalized result is the word nearest to it, however few bits it has. -/
theorem toNat_pack_normalize (mantissa shift : Nat) :
    (UnpackedFloat.pack Format.binary64 (UnpackedFloat.normalize Format.binary64 mantissa
      (shift - (1074 : Nat)) .positive)).toNat =
        nearestWord (mantissa * 2 ^ shift) unitsPerOne := by
  rcases Nat.eq_zero_or_pos mantissa with rfl | positive
  · rw [Nat.zero_mul, Decimal.nearestWord_zero]
    rfl
  · obtain ⟨up, amount⟩ : ∃ up, up = min (52 - mantissa.log2) shift := ⟨_, rfl⟩
    have shifted : mantissa * 2 ^ up * 2 ^ (shift - up) = mantissa * 2 ^ shift := by
      rw [Nat.mul_assoc, ← Nat.pow_add, Nat.add_sub_cancel' (by omega)]
    rw [normalize_eq positive, ← amount, ← shifted]
    by_cases wide : 2 ^ 52 ≤ mantissa * 2 ^ up
    · rw [toNat_pack_rounded wide (Nat.le_add_left _ _), unitsPerOne, unitExponent]
    · have least : up = shift := by
        have full := le_mul_two_pow positive
        by_contra less
        exact wide ((show up = 52 - mantissa.log2 by omega) ▸ full)
      rw [least] at wide ⊢
      have small : mantissa * 2 ^ shift < 2 ^ 52 := Nat.not_le.mp wide
      have units : unitsOfWord (mantissa * 2 ^ shift) = mantissa * 2 ^ shift := if_pos small
      have word := nearestWord_unitsOfWord (Nat.lt_trans small (by decide))
      rw [units] at word
      rw [Nat.sub_self, Nat.pow_zero, Nat.mul_one, word]
      exact toNat_pack_subnormal (Nat.mul_pos positive (Nat.two_pow_pos _)) small

/-- The finer one of two doubles gives the exponent that their difference is formed at. -/
theorem sub_of_finer {mantissa mantissa' shift : Nat} {exponent exponent' : Int}
    (positive : 0 < mantissa) (positive' : 0 < mantissa') (coarser : exponent = shift + exponent') :
    UnpackedFloat.sub Format.binary64 (.finite .positive mantissa exponent positive)
        (.finite .positive mantissa' exponent' positive') =
      UnpackedFloat.normalize Format.binary64 ((mantissa * 2 ^ shift : Nat) - mantissa') exponent'
        .positive := by
  have finer : min exponent exponent' = exponent' := Int.min_eq_right (by omega)
  have up : (exponent - exponent').toNat = shift := by omega
  unfold UnpackedFloat.sub decreaseExponent
  dsimp only
  rw [finer, up, Int.sub_self, Int.toNat_zero, Nat.shiftLeft_zero, Nat.shiftLeft_eq]
  rfl

theorem ofWord_sub_zero {word : Nat} (finite : word < infinityWord) :
    ofWord word - ofWord 0 = ofWord word := by
  by_cases zero : word = 0
  · subst zero
    decide
  · obtain ⟨_, unpacked⟩ := unpack_ofWord zero finite
    have nothing : (ofWord 0).toModel.unpack = .zero .positive := rfl
    apply eq_ofWord (Nat.le_of_lt finite)
    show (UnpackedFloat.pack Format.binary64 (UnpackedFloat.sub Format.binary64
      (ofWord word).toModel.unpack (ofWord 0).toModel.unpack)).toNat = _
    rw [nothing, unpacked]
    show (UnpackedFloat.pack Format.binary64 (.finite _ _ _ _)).toNat = _
    rw [← unpacked]
    have bits : (ofWord word).toBits.toBitVec.toNat = word :=
      toNat_toBits_ofWord (Nat.le_of_lt finite)
    have packed := @pack_unpack_of_le (ofWord word).toBits.toBitVec
      (by rw [bits]; exact Nat.le_trans (Nat.mod_le _ _) (Nat.le_of_lt finite))
    exact (congrArg BitVec.toNat packed).trans bits

/-- A difference of doubles is the word nearest to the exact difference. -/
theorem ofWord_sub {word word' : Nat} (h : word' ≤ word) (finite : word < infinityWord) :
    ofWord word - ofWord word' =
      ofWord (nearestWord (unitsOfWord word - unitsOfWord word') unitsPerOne) := by
  by_cases zero' : word' = 0
  · subst zero'
    have units : unitsOfWord 0 = 0 := rfl
    rw [ofWord_sub_zero finite, units, Nat.sub_zero, nearestWord_unitsOfWord finite]
  · obtain ⟨_, unpacked⟩ := unpack_ofWord (show word ≠ 0 by omega) finite
    obtain ⟨_, unpacked'⟩ := unpack_ofWord zero' (Nat.lt_of_le_of_lt h finite)
    have binades : word' / 2 ^ 52 ≤ word / 2 ^ 52 := Nat.div_le_div_right h
    obtain ⟨shift, binade⟩ : ∃ shift, word / 2 ^ 52 - 1 = shift + (word' / 2 ^ 52 - 1) :=
      ⟨word / 2 ^ 52 - 1 - (word' / 2 ^ 52 - 1), by omega⟩
    have coarser : ((word / 2 ^ 52 - 1 : Nat) - (1074 : Nat) : Int) =
        shift + ((word' / 2 ^ 52 - 1 : Nat) - (1074 : Nat)) := by omega
    have units : unitsOfWord word - unitsOfWord word' =
        (mantissaOfWord word * 2 ^ shift - mantissaOfWord word') * 2 ^ (word' / 2 ^ 52 - 1) := by
      rw [unitsOfWord_eq, unitsOfWord_eq, binade, Nat.pow_add, ← Nat.mul_assoc, Nat.sub_mul]
    have order : mantissaOfWord word' ≤ mantissaOfWord word * 2 ^ shift := by
      have exact := unitsOfWord_mono finite h
      rw [unitsOfWord_eq, unitsOfWord_eq, binade, Nat.pow_add, ← Nat.mul_assoc] at exact
      exact Nat.le_of_mul_le_mul_right exact (Nat.two_pow_pos _)
    refine eq_ofWord (nearestWord_le _ _) ?_
    show (UnpackedFloat.pack Format.binary64 (UnpackedFloat.sub Format.binary64
      (ofWord word).toModel.unpack (ofWord word').toModel.unpack)).toNat = _
    rw [unpacked, unpacked', sub_of_finer _ _ coarser, ← Nat.cast_sub order, toNat_pack_normalize,
      units]

theorem unitsOfWord_oneWord : unitsOfWord oneWord = unitsPerOne := by
  calc unitsOfWord oneWord = 2 ^ 0 * unitsPerOne := unitsOfWord_two_pow 0
    _ = unitsPerOne := by rw [Nat.pow_zero, Nat.one_mul]

theorem ofWord_sub_one {word : Nat} (large : oneWord ≤ word) (finite : word < infinityWord) :
    ofWord word - 1 = ofWord (nearestWord (unitsOfWord word - unitsPerOne) unitsPerOne) := by
  rw [← ofWord_oneWord, ofWord_sub large finite, unitsOfWord_oneWord]

end PocketCalc.Binary64
