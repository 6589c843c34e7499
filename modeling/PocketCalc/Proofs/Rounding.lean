import PocketCalc.Proofs.ReadBack

/-!
# Rounding keeps the order

A larger quotient is never rounded to a smaller word. Where the quotients lie in one binade, the
whole numbers they are rounded to are compared; otherwise a power of two lies between the words.
-/
namespace PocketCalc.Binary64

theorem log2_mul_two_pow {whole : Nat} (h : whole ≠ 0) (shift : Nat) :
    (whole * 2 ^ shift).log2 = whole.log2 + shift := by
  induction shift with
  | zero => rw [Nat.pow_zero, Nat.mul_one, Nat.add_zero]
  | succ shift ih =>
    have some : whole * 2 ^ shift ≠ 0 := Nat.mul_ne_zero h (Nat.ne_of_gt (Nat.two_pow_pos shift))
    rw [Nat.pow_succ', Nat.mul_left_comm, Nat.log2_two_mul some, ih, Nat.add_assoc]

theorem log2_mono {whole whole' : Nat} (h : whole ≤ whole') : whole.log2 ≤ whole'.log2 := by
  by_cases none : whole = 0
  · rw [none]
    exact Nat.zero_le _
  · have some : whole' ≠ 0 := Nat.ne_of_gt (Nat.lt_of_lt_of_le (Nat.pos_of_ne_zero none) h)
    exact (Nat.le_log2 some).mpr (Nat.le_trans (Nat.log2_self_le none) h)

theorem div_le_div_of_quotient {numerator numerator' denominator denominator' : Nat}
    (positive : 0 < denominator) (positive' : 0 < denominator')
    (h : numerator * denominator' ≤ numerator' * denominator) :
    numerator / denominator ≤ numerator' / denominator' := by
  rw [Nat.le_div_iff_mul_le positive']
  apply Nat.le_of_mul_le_mul_right _ positive
  calc numerator / denominator * denominator' * denominator
      = numerator / denominator * denominator * denominator' := Nat.mul_right_comm _ _ _
    _ ≤ numerator * denominator' := Nat.mul_le_mul_right _ (Nat.div_mul_le_self _ _)
    _ ≤ numerator' * denominator := h

theorem le_log2_of_wide {mantissa : Nat} (wide : 2 ^ 52 ≤ mantissa) : 52 ≤ mantissa.log2 :=
  (Nat.le_log2 (by omega)).mpr wide

/-- A mantissa is shifted up to 53 bits, unless it has them. -/
theorem le_mul_two_pow {mantissa : Nat} (positive : 0 < mantissa) :
    2 ^ 52 ≤ mantissa * 2 ^ (52 - mantissa.log2) := by
  calc 2 ^ 52 ≤ 2 ^ (mantissa.log2 + (52 - mantissa.log2)) :=
        Nat.pow_le_pow_right Nat.two_pos (by omega)
    _ = 2 ^ mantissa.log2 * 2 ^ (52 - mantissa.log2) := Nat.pow_add _ _ _
    _ ≤ mantissa * 2 ^ (52 - mantissa.log2) :=
        Nat.mul_le_mul_right _ (Nat.log2_self_le (Nat.ne_of_gt positive))

theorem roundHalfEven_mono {numerator numerator' denominator : Nat} (positive : 0 < denominator)
    (h : numerator ≤ numerator') :
    roundHalfEven numerator denominator ≤ roundHalfEven numerator' denominator := by
  by_cases same : numerator = numerator'
  · rw [same]
  · obtain ⟨-, below⟩ := roundHalfEven_within numerator positive
    obtain ⟨above, -⟩ := roundHalfEven_within numerator' positive
    have apart : roundHalfEven numerator denominator * denominator <
        (roundHalfEven numerator' denominator + 1) * denominator := by
      rw [Nat.add_mul]
      omega
    exact Nat.lt_succ_iff.mp (Nat.lt_of_mul_lt_mul_right apart)

theorem roundHalfEven_mono_of_quotient {numerator numerator' denominator denominator' : Nat}
    (positive : 0 < denominator) (positive' : 0 < denominator')
    (h : numerator * denominator' ≤ numerator' * denominator) :
    roundHalfEven numerator denominator ≤ roundHalfEven numerator' denominator' := by
  rw [← roundHalfEven_mul_left positive' numerator, ← roundHalfEven_mul_left positive numerator',
    Nat.mul_comm denominator denominator', Nat.mul_comm denominator' numerator,
    Nat.mul_comm denominator numerator']
  exact roundHalfEven_mono (Nat.mul_pos positive' positive) h

theorem roundHalfEven_le {numerator denominator bound : Nat} (positive : 0 < denominator)
    (h : numerator ≤ bound * denominator) : roundHalfEven numerator denominator ≤ bound := by
  rw [← roundHalfEven_mul bound positive]
  exact roundHalfEven_mono positive h

theorem le_roundHalfEven {numerator denominator bound : Nat} (positive : 0 < denominator)
    (h : bound * denominator ≤ numerator) : bound ≤ roundHalfEven numerator denominator := by
  rw [← roundHalfEven_mul bound positive]
  exact roundHalfEven_mono positive h

/-- A quotient fills at most the binade that it is rounded in. -/
theorem roundHalfEven_le_binade (scaled : Nat) {denominator : Nat} (positive : 0 < denominator) :
    roundHalfEven scaled (denominator * 2 ^ ((scaled / denominator).log2 - 52)) ≤ 2 ^ 53 := by
  apply roundHalfEven_le (Nat.mul_pos positive (Nat.two_pow_pos _))
  have size : scaled / denominator < 2 ^ ((scaled / denominator).log2 + 1) := Nat.lt_log2_self
  have room : 2 ^ ((scaled / denominator).log2 + 1) ≤
      2 ^ 53 * 2 ^ ((scaled / denominator).log2 - 52) := by
    rw [← Nat.pow_add]
    exact Nat.pow_le_pow_right (by decide) (by omega)
  calc scaled ≤ denominator * (scaled / denominator + 1) :=
        Nat.le_of_lt (Nat.lt_mul_div_succ scaled positive)
    _ ≤ denominator * (2 ^ 53 * 2 ^ ((scaled / denominator).log2 - 52)) :=
        Nat.mul_le_mul_left _ (Nat.le_trans size room)
    _ = 2 ^ 53 * (denominator * 2 ^ ((scaled / denominator).log2 - 52)) := Nat.mul_left_comm _ _ _

/-- Above the subnormal numbers it fills at least the half of it. -/
theorem binade_le_roundHalfEven (scaled : Nat) {denominator : Nat} (positive : 0 < denominator)
    (normal : 52 ≤ (scaled / denominator).log2) :
    2 ^ 52 ≤ roundHalfEven scaled (denominator * 2 ^ ((scaled / denominator).log2 - 52)) := by
  apply le_roundHalfEven (Nat.mul_pos positive (Nat.two_pow_pos _))
  have some : scaled / denominator ≠ 0 := by
    intro none
    rw [none] at normal
    exact absurd normal (by decide)
  have size : 2 ^ (scaled / denominator).log2 ≤ scaled / denominator := Nat.log2_self_le some
  calc 2 ^ 52 * (denominator * 2 ^ ((scaled / denominator).log2 - 52))
      = denominator * 2 ^ (scaled / denominator).log2 := by
        rw [Nat.mul_left_comm, ← Nat.pow_add, Nat.add_sub_cancel' normal]
    _ ≤ denominator * (scaled / denominator) := Nat.mul_le_mul_left _ size
    _ ≤ scaled := Nat.mul_div_le scaled denominator

/-- A mantissa that is shifted to 53 bits and rounded has 53 bits, or is the least of 54. -/
theorem roundHalfEven_of_wide {mantissa : Nat} (wide : 2 ^ 52 ≤ mantissa) :
    2 ^ 52 ≤ roundHalfEven mantissa (2 ^ (mantissa.log2 - 52)) ∧
      roundHalfEven mantissa (2 ^ (mantissa.log2 - 52)) ≤ 2 ^ 53 := by
  have size : 52 ≤ (mantissa / 1).log2 := by
    rw [Nat.div_one]
    exact le_log2_of_wide wide
  have above := binade_le_roundHalfEven mantissa Nat.one_pos size
  have below := roundHalfEven_le_binade mantissa Nat.one_pos
  rw [Nat.div_one, Nat.one_mul] at above below
  exact ⟨above, below⟩

theorem nearestWord_mono {numerator numerator' denominator denominator' : Nat}
    (positive : 0 < denominator) (positive' : 0 < denominator')
    (h : numerator * denominator' ≤ numerator' * denominator) :
    nearestWord numerator denominator ≤ nearestWord numerator' denominator' := by
  have scaled : numerator * unitsPerOne * denominator' ≤
      numerator' * unitsPerOne * denominator := by
    rw [Nat.mul_right_comm, Nat.mul_right_comm numerator']
    exact Nat.mul_le_mul_right _ h
  unfold nearestWord
  dsimp only
  generalize numerator * unitsPerOne = top at *
  generalize numerator' * unitsPerOne = top' at *
  have binades : (top / denominator).log2 ≤ (top' / denominator').log2 :=
    log2_mono (div_le_div_of_quotient positive positive' scaled)
  by_cases same : (top / denominator).log2 - 52 = (top' / denominator').log2 - 52
  · have rounded : roundHalfEven top (denominator * 2 ^ ((top' / denominator').log2 - 52)) ≤
        roundHalfEven top' (denominator' * 2 ^ ((top' / denominator').log2 - 52)) := by
      have step := Nat.two_pow_pos ((top' / denominator').log2 - 52)
      apply roundHalfEven_mono_of_quotient (Nat.mul_pos positive step) (Nat.mul_pos positive' step)
      rw [← Nat.mul_assoc, ← Nat.mul_assoc]
      exact Nat.mul_le_mul_right _ scaled
    rw [same]
    exact min_le_min_right _ (Nat.add_le_add_left rounded _)
  · have below := roundHalfEven_le_binade top positive
    have above := binade_le_roundHalfEven top' positive' (by omega)
    apply min_le_min_right
    generalize roundHalfEven top _ = rounded at *
    generalize roundHalfEven top' _ = rounded' at *
    omega

theorem nearestWord_le (numerator denominator : Nat) :
    nearestWord numerator denominator ≤ infinityWord :=
  Nat.min_le_right _ _

theorem nearestWord_unitsOfWord {word : Nat} (finite : word < infinityWord) :
    nearestWord (unitsOfWord word) unitsPerOne = word :=
  nearestWord_of_units unitsPerOne_pos finite rfl

theorem unitsOfWord_mono {word word' : Nat} (finite : word' < infinityWord) (h : word ≤ word') :
    unitsOfWord word ≤ unitsOfWord word' := by
  apply Nat.le_of_not_lt
  intro above
  have order := nearestWord_mono unitsPerOne_pos unitsPerOne_pos
    (Nat.mul_le_mul_right unitsPerOne (Nat.le_of_lt above))
  rw [nearestWord_unitsOfWord finite,
    nearestWord_unitsOfWord (Nat.lt_of_le_of_lt h finite)] at order
  rw [Nat.le_antisymm h order] at above
  exact Nat.lt_irrefl _ above

/-- A quotient of powers of two by a wide mantissa is rounded where the mantissa is. -/
theorem nearestWord_of_wide {mantissa up down biased : Nat} (wide : 2 ^ 52 ≤ mantissa)
    (bias : up + unitExponent = down + biased) :
    nearestWord (mantissa * 2 ^ up) (2 ^ down) =
      min ((mantissa.log2 - 52 + biased) * 2 ^ 52 +
        roundHalfEven mantissa (2 ^ (mantissa.log2 - 52))) infinityWord := by
  have size := le_log2_of_wide wide
  have scaled : mantissa * 2 ^ up * unitsPerOne = 2 ^ (down + biased) * mantissa := by
    rw [Nat.mul_assoc, two_pow_mul_unitsPerOne, bias, Nat.mul_comm]
  have quotient : mantissa * 2 ^ up * unitsPerOne / 2 ^ down = mantissa * 2 ^ biased := by
    rw [scaled, Nat.pow_add, Nat.mul_assoc, Nat.mul_div_cancel_left _ (Nat.two_pow_pos _),
      Nat.mul_comm]
  have shift : (mantissa * 2 ^ biased).log2 - 52 = mantissa.log2 - 52 + biased := by
    rw [log2_mul_two_pow (by omega)]
    omega
  have denominator : 2 ^ down * 2 ^ (mantissa.log2 - 52 + biased) =
      2 ^ (down + biased) * 2 ^ (mantissa.log2 - 52) := by
    rw [← Nat.pow_add, ← Nat.pow_add, ← Nat.add_assoc, Nat.add_right_comm]
  unfold nearestWord
  dsimp only
  rw [quotient, shift, denominator, scaled, roundHalfEven_mul_left (Nat.two_pow_pos _)]

theorem unitsOfWord_of_normal {word : Nat} (normal : 2 ^ 52 ≤ word) :
    unitsOfWord word = (2 ^ 52 + word % 2 ^ 52) * 2 ^ (word / 2 ^ 52 - 1) :=
  if_neg (Nat.not_lt.mpr normal)

/-- The word of the double nearest to a whole number. -/
def wholeWord (number : Nat) : Nat :=
  nearestWord number 1

theorem wholeWord_mono {number number' : Nat} (h : number ≤ number') :
    wholeWord number ≤ wholeWord number' :=
  nearestWord_mono Nat.one_pos Nat.one_pos (Nat.mul_le_mul_right 1 h)

theorem wholeWord_of_units {number word : Nat} (finite : word < infinityWord)
    (exact : unitsOfWord word = number * unitsPerOne) : wholeWord number = word :=
  nearestWord_of_units Nat.one_pos finite (by rw [exact, Nat.mul_one])

/-- A whole number of at most 53 bits has a word of its own. -/
theorem exists_word_of_whole {number : Nat} (small : number < 2 ^ 53) :
    ∃ word < infinityWord, unitsOfWord word = number * unitsPerOne := by
  by_cases none : number = 0
  · subst none
    exact ⟨0, by decide, by rw [Nat.zero_mul]; rfl⟩
  · have size : number.log2 < 53 := (Nat.log2_lt none).mpr small
    obtain ⟨low, split, value⟩ : ∃ low, unitExponent = 52 + low ∧ low = 1022 := ⟨1022, rfl, rfl⟩
    have wide := le_mul_two_pow (Nat.pos_of_ne_zero none)
    have narrow : number * 2 ^ (52 - number.log2) < 2 ^ 53 := by
      calc number * 2 ^ (52 - number.log2) < 2 ^ (number.log2 + 1) * 2 ^ (52 - number.log2) :=
            Nat.mul_lt_mul_of_pos_right Nat.lt_log2_self (Nat.two_pow_pos _)
        _ = 2 ^ 53 := by
            rw [← Nat.pow_add]
            congr 1
            omega
    have units : number * unitsPerOne =
        number * 2 ^ (52 - number.log2) * 2 ^ (number.log2 + low) := by
      rw [unitsPerOne, split, Nat.mul_assoc, ← Nat.pow_add]
      congr 2
      omega
    rw [units]
    generalize number * 2 ^ (52 - number.log2) = mantissa at *
    refine ⟨(number.log2 + low) * 2 ^ 52 + mantissa, ?_, ?_⟩
    · unfold infinityWord
      omega
    · have binade : ((number.log2 + low) * 2 ^ 52 + mantissa) / 2 ^ 52 - 1 =
          number.log2 + low := by omega
      have fraction : 2 ^ 52 + ((number.log2 + low) * 2 ^ 52 + mantissa) % 2 ^ 52 = mantissa := by
        omega
      rw [unitsOfWord, if_neg (by omega), binade, fraction]

theorem unitsOfWord_two_pow (exponent : Nat) :
    unitsOfWord ((1023 + exponent) * 2 ^ 52) = 2 ^ exponent * unitsPerOne := by
  have field : (1023 + exponent) * 2 ^ 52 / 2 ^ 52 - 1 = 1022 + exponent := by omega
  have fraction : (1023 + exponent) * 2 ^ 52 % 2 ^ 52 = 0 := Nat.mul_mod_left _ _
  have total : 52 + (1022 + exponent) = exponent + unitExponent := by
    unfold unitExponent
    omega
  rw [unitsOfWord_of_normal (by omega), field, fraction, Nat.add_zero, ← Nat.pow_add, total,
    two_pow_mul_unitsPerOne]

/-- The word of a power of two is the least of its binade. -/
theorem wholeWord_two_pow {exponent : Nat} (h : exponent ≤ 1023) :
    wholeWord (2 ^ exponent) = (1023 + exponent) * 2 ^ 52 := by
  refine wholeWord_of_units ?_ (unitsOfWord_two_pow exponent)
  unfold infinityWord
  omega

theorem wholeWord_lt {number : Nat} (small : number < 2 ^ 53) :
    wholeWord number < infinityWord := by
  obtain ⟨word, finite, exact⟩ := exists_word_of_whole small
  rwa [wholeWord_of_units finite exact]

theorem unitsOfWord_wholeWord {number : Nat} (small : number < 2 ^ 53) :
    unitsOfWord (wholeWord number) = number * unitsPerOne := by
  obtain ⟨word, finite, exact⟩ := exists_word_of_whole small
  rw [wholeWord_of_units finite exact, exact]

end PocketCalc.Binary64
