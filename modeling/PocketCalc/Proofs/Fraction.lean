import PocketCalc.Proofs.WordArithmetic

/-!
# Whole numbers among the doubles

Truncation is exact, and so is the difference that is left: the fraction of a double that is not
negative is the double of the units beyond its whole number. It is zero for the whole numbers only.
-/
namespace PocketCalc.Binary64

open Float.Model (UnpackedFloat)

theorem ofWord_beq_zero {word : Nat} (finite : word < infinityWord) :
    (ofWord word == 0) = decide (word = 0) := by
  by_cases zero : word = 0
  · subst zero
    rfl
  · obtain ⟨_, unpacked⟩ := unpack_ofWord zero finite
    have nothing : (0 : Float).toModel.unpack = .zero .positive := rfl
    rw [decide_eq_false zero]
    show UnpackedFloat.beq (ofWord word).toModel.unpack (0 : Float).toModel.unpack = false
    rw [unpacked, nothing]
    rfl

theorem mantissaOfWord_lt (word : Nat) : mantissaOfWord word < 2 ^ 53 := by
  unfold mantissaOfWord
  split <;> omega

/-- From here on all doubles are whole numbers. -/
theorem unitsPerOne_dvd_of_large {word : Nat} (large : 2 ^ 53 * unitsPerOne ≤ unitsOfWord word) :
    unitsPerOne ∣ unitsOfWord word := by
  rw [unitsOfWord_eq] at *
  have exponent : unitExponent ≤ word / 2 ^ 52 - 1 := by
    by_contra low
    have small : mantissaOfWord word * 2 ^ (word / 2 ^ 52 - 1) < 2 ^ 53 * unitsPerOne := by
      calc mantissaOfWord word * 2 ^ (word / 2 ^ 52 - 1)
          < 2 ^ 53 * 2 ^ (word / 2 ^ 52 - 1) :=
            Nat.mul_lt_mul_of_pos_right (mantissaOfWord_lt word) (Nat.two_pow_pos _)
        _ ≤ 2 ^ 53 * unitsPerOne :=
            Nat.mul_le_mul_left _ (Nat.pow_le_pow_right Nat.two_pos (by omega))
    exact absurd large (Nat.not_le.mpr small)
  exact Nat.dvd_mul_left_of_dvd (Nat.pow_dvd_pow 2 exponent) _

theorem unitsOfWord_truncated {word : Nat} (finite : word < infinityWord) :
    unitsOfWord (wholeWord (unitsOfWord word / unitsPerOne)) =
      unitsOfWord word / unitsPerOne * unitsPerOne := by
  by_cases small : unitsOfWord word / unitsPerOne < 2 ^ 53
  · exact unitsOfWord_wholeWord small
  · have large : 2 ^ 53 * unitsPerOne ≤ unitsOfWord word :=
      (Nat.le_div_iff_mul_le unitsPerOne_pos).mp (Nat.not_lt.mp small)
    have whole := Nat.div_mul_cancel (unitsPerOne_dvd_of_large large)
    rw [wholeWord_of_units finite whole.symm, whole]

/-- What a double has after the point, exactly. -/
theorem fract_ofWord {word : Nat} (finite : word < infinityWord) :
    fract (ofWord word) = ofWord (nearestWord (unitsOfWord word % unitsPerOne) unitsPerOne) := by
  have below : wholeWord (unitsOfWord word / unitsPerOne) ≤ word := by
    calc wholeWord (unitsOfWord word / unitsPerOne)
        ≤ nearestWord (unitsOfWord word) unitsPerOne := by
          apply nearestWord_mono Nat.one_pos unitsPerOne_pos
          rw [Nat.mul_one]
          exact Nat.div_mul_le_self _ _
      _ = word := nearestWord_unitsOfWord finite
  have rest : unitsOfWord word - unitsOfWord word / unitsPerOne * unitsPerOne =
      unitsOfWord word % unitsPerOne := by
    rw [Nat.mod_eq_sub_div_mul]
  rw [fract, truncated, parts_ofWord finite, ← rest, ← unitsOfWord_truncated finite]
  exact ofWord_sub below finite

/-- No count of units is rounded to zero but zero. -/
theorem nearestWord_eq_zero_iff (units : Nat) :
    nearestWord units unitsPerOne = 0 ↔ units = 0 := by
  constructor
  · intro none
    by_contra some
    have least : nearestWord (unitsOfWord 1) unitsPerOne ≤ nearestWord units unitsPerOne :=
      nearestWord_mono unitsPerOne_pos unitsPerOne_pos
        (Nat.mul_le_mul_right _ (Nat.pos_of_ne_zero some))
    rw [nearestWord_unitsOfWord (by decide), none] at least
    exact absurd least (by decide)
  · rintro rfl
    exact Decimal.nearestWord_zero unitsPerOne

/-- A finite double that is not negative is a whole number if nothing is left after the point. -/
theorem fract_ofWord_bne_zero {word : Nat} (finite : word < infinityWord) :
    (fract (ofWord word) != 0) = true ↔ ¬ unitsPerOne ∣ unitsOfWord word := by
  have bound : nearestWord (unitsOfWord word % unitsPerOne) unitsPerOne < infinityWord := by
    calc nearestWord (unitsOfWord word % unitsPerOne) unitsPerOne
        ≤ nearestWord (unitsOfWord word) unitsPerOne :=
          nearestWord_mono unitsPerOne_pos unitsPerOne_pos
            (Nat.mul_le_mul_right _ (Nat.mod_le _ _))
      _ = word := nearestWord_unitsOfWord finite
      _ < infinityWord := finite
  rw [fract_ofWord finite, bne, ofWord_beq_zero bound, Nat.dvd_iff_mod_eq_zero]
  simp [nearestWord_eq_zero_iff]

end PocketCalc.Binary64
