import PocketCalc.Proofs.Bits
import PocketCalc.Proofs.Literal

/-!
# Reading back a displayed number

The digits that a number is displayed with stand for the decimal they were laid out from, and that
decimal rounds to the number again. A displayed number is therefore one literal after at most one
minus, or a word, and its tokens stand for the number itself.
-/
namespace PocketCalc

namespace Binary64

theorem roundHalfEven_mul_left {scale : Nat} (positive : 0 < scale) (numerator denominator : Nat) :
    roundHalfEven (scale * numerator) (scale * denominator) =
      roundHalfEven numerator denominator := by
  have twice : 2 * (scale * (numerator % denominator)) =
      scale * (2 * (numerator % denominator)) := Nat.mul_left_comm _ _ _
  unfold roundHalfEven
  rw [Nat.mul_div_mul_left _ _ positive, Nat.mul_mod_mul_left, twice]
  simp only [Nat.mul_lt_mul_left positive, Nat.mul_right_inj (Nat.ne_of_gt positive)]

/-- Rounding sees the quotient only, not the terms it is given in. -/
theorem nearestWord_mul_left {scale : Nat} (positive : 0 < scale) (numerator denominator : Nat) :
    nearestWord (scale * numerator) (scale * denominator) = nearestWord numerator denominator := by
  unfold nearestWord
  simp only [Nat.mul_assoc, Nat.mul_div_mul_left _ _ positive, roundHalfEven_mul_left positive]

theorem nearestWord_congr {numerator denominator numerator' denominator' : Nat}
    (positive : 0 < denominator) (positive' : 0 < denominator')
    (same : numerator * denominator' = numerator' * denominator) :
    nearestWord numerator denominator = nearestWord numerator' denominator' := by
  calc nearestWord numerator denominator
      = nearestWord (denominator' * numerator) (denominator' * denominator) :=
        (nearestWord_mul_left positive' _ _).symm
    _ = nearestWord (denominator * numerator') (denominator * denominator') := by
        rw [Nat.mul_comm denominator', same, Nat.mul_comm numerator', Nat.mul_comm denominator']
    _ = nearestWord numerator' denominator' := nearestWord_mul_left positive _ _

end Binary64

namespace Decimal

theorem denominator_pos (decimal : Decimal) : 0 < decimal.denominator :=
  Nat.pow_pos (by decide)

theorem word_congr {decimal decimal' : Decimal}
    (same : decimal.numerator * decimal'.denominator =
      decimal'.numerator * decimal.denominator) : decimal.word = decimal'.word := by
  rw [word_eq_nearestWord, word_eq_nearestWord]
  exact Binary64.nearestWord_congr decimal.denominator_pos decimal'.denominator_pos same

theorem exists_trimZeros_append (text : Text) :
    ∃ omitted, text = trimZeros text ++ List.replicate omitted '0' := by
  have zeros : ∀ character ∈ text.reverse.takeWhile (· == '0'), character = '0' :=
    fun character member => beq_iff_eq.mp (List.all_eq_true.mp List.all_takeWhile character member)
  have whole : text.reverse.takeWhile (· == '0') ++ text.reverse.dropWhile (· == '0') =
      text.reverse := List.takeWhile_append_dropWhile
  rw [List.eq_replicate_of_mem zeros] at whole
  refine ⟨(text.reverse.takeWhile (· == '0')).length, ?_⟩
  rw [trimZeros, ← List.reverse_replicate, ← List.reverse_append, whole, List.reverse_reverse]

/-- The digits after the point fill their places once the zeros that were left out are back. -/
theorem exists_fraction_zeros (decimal : Decimal) :
    ∃ omitted, (-decimal.exponent).toNat = decimal.laidOut.fraction.length + omitted ∧
      10 ^ omitted * Nat.ofDigitChars 10 decimal.laidOut.fraction 0 =
        decimal.numerator % decimal.denominator := by
  have small : decimal.numerator % decimal.denominator < 10 ^ (-decimal.exponent).toNat :=
    Nat.mod_lt _ decimal.denominator_pos
  unfold laidOut
  dsimp only
  generalize (-decimal.exponent).toNat = places at *
  generalize decimal.numerator % decimal.denominator = remainder at *
  cases places with
  | zero =>
    have none : remainder = 0 := by simpa using small
    subst none
    exact ⟨0, by decide, by decide⟩
  | succ places =>
    -- The zeros padded on the left keep the value, and those trimmed on the right scale it.
    obtain ⟨omitted, padded⟩ :=
      exists_trimZeros_append (List.leftpad (places + 1) '0' (Nat.toDigits 10 remainder))
    have fits : (Nat.toDigits 10 remainder).length ≤ places + 1 :=
      (Nat.length_toDigits_le_iff (by decide) (Nat.succ_pos _)).mpr small
    have length := congrArg List.length padded
    have value := congrArg (Nat.ofDigitChars 10 · 0) padded
    rw [List.length_leftpad, Nat.max_eq_left fits, List.length_append, List.length_replicate]
      at length
    rw [Nat.ofDigitChars_append, Nat.ofDigitChars_replicate_zero, List.leftpad,
      Nat.ofDigitChars_append, Nat.ofDigitChars_replicate_zero, Nat.mul_zero,
      Nat.ofDigitChars_ten_toDigits] at value
    exact ⟨omitted, length, value.symm⟩

/-- The digits of a layout stand for the decimal that was laid out. -/
theorem word_laidOut (decimal : Decimal) : decimal.laidOut.decimal.word = decimal.word := by
  obtain ⟨omitted, places, rest⟩ := decimal.exists_fraction_zeros
  have denominator : decimal.denominator = 10 ^ decimal.laidOut.fraction.length * 10 ^ omitted := by
    rw [Decimal.denominator, places, Nat.pow_add]
  have whole : Nat.ofDigitChars 10 decimal.laidOut.whole 0 =
      decimal.numerator / decimal.denominator := Nat.ofDigitChars_ten_toDigits
  have digits : 10 ^ omitted * decimal.laidOut.decimal.digits = decimal.numerator := by
    rw [Numeral.decimal]
    dsimp only
    rw [Nat.ofDigitChars_append, Nat.ofDigitChars_eq_ofDigitChars_zero, whole, Nat.mul_add, rest,
      ← Nat.mul_assoc, Nat.mul_comm (10 ^ omitted), ← denominator]
    exact Nat.div_add_mod _ _
  have numerator' : decimal.laidOut.decimal.numerator = decimal.laidOut.decimal.digits := by
    have flat : decimal.laidOut.decimal.exponent.toNat = 0 := by simp [Numeral.decimal]
    rw [Decimal.numerator, flat, Nat.pow_zero, Nat.mul_one]
  have denominator' : decimal.laidOut.decimal.denominator =
      10 ^ decimal.laidOut.fraction.length := by
    simp [Decimal.denominator, Numeral.decimal]
  refine word_congr ?_
  rw [numerator', denominator', denominator, ← digits, Nat.mul_comm (10 ^ omitted),
    Nat.mul_assoc, Nat.mul_comm (10 ^ _) (10 ^ omitted)]

/-- A layout as a literal. -/
def literal (decimal : Decimal) : Literal where
  whole := decimal.laidOut.whole
  fraction := if decimal.laidOut.fraction.isEmpty then none else some decimal.laidOut.fraction
  digits := by
    refine List.all_eq_true.mpr ?_
    intro character member
    rcases List.mem_append.mp member with inWhole | inFraction
    · exact decimal.isDigit_of_mem_laidOut_whole character inWhole
    · split at inFraction
      · cases inFraction
      · exact decimal.isDigit_of_mem_laidOut_fraction character inFraction
  spelled := List.append_ne_nil_of_left_ne_nil decimal.laidOut_whole_ne_nil _

theorem text_literal (decimal : Decimal) : decimal.literal.text = decimal.layout := by
  rw [layout_eq, Literal.text, literal]
  dsimp only
  by_cases empty : decimal.laidOut.fraction.isEmpty = true
  · rw [if_pos empty, if_pos empty]
  · rw [if_neg empty, if_neg empty]

theorem numeral_literal (decimal : Decimal) : decimal.literal.numeral = decimal.laidOut := by
  rw [Literal.numeral, literal]
  dsimp only
  generalize decimal.laidOut = numeral
  obtain ⟨whole, fraction⟩ := numeral
  cases fraction <;> rfl

theorem value_literal (decimal : Decimal) :
    decimal.literal.value = Binary64.ofWord decimal.word := by
  rw [Literal.value, numeral_literal, toFloat, word_laidOut]

end Decimal

open Binary64 (Parts parts ofParts)

theorem lt_infinityWord_of_parts {value : Float} {negative : Bool} {word : Nat}
    (h : parts value = .finite negative word) : word < Binary64.infinityWord := by
  unfold parts at h
  dsimp only at h
  split at h
  next finite =>
    cases h
    exact finite
  · split at h <;> cases h

/-- A text of letters is one word before a text that does not go on with a letter. -/
theorem scan_word {word rest : Text} (typed : word ≠ []) (letters : word.all isLetter = true)
    (stop : ∀ character ∈ rest.head?, isLetter character = false) :
    scan (word ++ rest) =
      match wordValue? word with
      | some value => (scan rest).map (.number value :: ·)
      | none => .error (.unrecognizedToken word) := by
  cases word with
  | nil => exact absurd rfl typed
  | cons first others =>
    obtain ⟨letter, later⟩ := List.forall_mem_cons.mp (List.all_eq_true.mp letters)
    have kept : (others ++ rest).takeWhile isLetter = others := by
      rw [takeWhile_append_stop stop, takeWhile_eq_self later]
    have left : (others ++ rest).dropWhile isLetter = rest := by
      rw [dropWhile_append_stop stop, dropWhile_eq_nil later, List.nil_append]
    rw [List.cons_append, scan_cons]
    unfold lexeme
    cases known : wordValue? (first :: others) with
    | some value => simp [letter, kept, left, known, Except.bind]
    | none => simp [letter, kept, known, Except.bind]

theorem tokenize_letters {word : Text} (typed : word ≠ []) (shown : Shown word)
    (letters : word.all isLetter = true) :
    tokenize word =
      match wordValue? word with
      | some value => .ok [.number value]
      | none => .error (.unrecognizedToken word) := by
  have alone := @scan_word word [] typed letters (by simp)
  rw [List.append_nil] at alone
  rw [tokenize, shown.normalize, alone]
  cases wordValue? word with
  | some value => simp [scan, Except.map]
  | none => rfl

theorem tokenize_layout (decimal : Decimal) :
    tokenize decimal.layout = .ok [.number (Binary64.ofWord decimal.word)] := by
  rw [← Decimal.text_literal, Literal.tokenize_text, Decimal.value_literal]

/-- The tokens of a number with a sign before it. -/
def signedTokens (negative : Bool) (magnitude : Float) : List Token :=
  if negative then [.minus, .number magnitude] else [.number magnitude]

theorem tokenize_sign (negative : Bool) {text : Text} {magnitude : Float}
    (read : tokenize text = .ok [.number magnitude]) :
    tokenize (Spelling.sign negative ++ text) = .ok (signedTokens negative magnitude) := by
  cases negative with
  | false => exact read
  | true =>
    have marked : tokenize ('-' :: text) = (tokenize text).map (.minus :: ·) :=
      tokenize_mark_start rfl (by rintro ⟨⟩)
    rw [read] at marked
    exact marked

/-- The texts that magnitudes are displayed as, each with the magnitude. -/
inductive Magnitude : Text → Float → Prop
  | notANumber : Magnitude "NaN".toList Binary64.notANumber
  | infinity : Magnitude "Infinity".toList Binary64.infinity
  | finite (decimal : Decimal) : Magnitude decimal.layout (Binary64.ofWord decimal.word)

theorem Magnitude.tokenize {text : Text} {magnitude : Float} (h : Magnitude text magnitude) :
    PocketCalc.tokenize text = .ok [.number magnitude] := by
  cases h with
  | notANumber => exact tokenize_letters (by decide) (by decide) (by decide)
  | infinity => exact tokenize_letters (by decide) (by decide) (by decide)
  | finite decimal => exact tokenize_layout decimal

/-- A number is displayed as its sign and its magnitude. A negative zero alone is displayed
without its sign. -/
theorem exists_magnitude_displayText {value : Float} (h : parts value ≠ .finite true 0) :
    ∃ negative text magnitude, displayText value = Spelling.sign negative ++ text ∧
      Magnitude text magnitude ∧ (if negative then -magnitude else magnitude) = value := by
  have whole := Binary64.ofParts_parts value
  unfold displayText Spelling.write
  split
  next shape =>
    rw [shape] at whole
    exact ⟨false, _, _, rfl, .notANumber, whole⟩
  next negative shape =>
    rw [shape] at whole
    refine ⟨negative, _, _, rfl, .infinity, ?_⟩
    cases negative <;> exact whole
  next negative shape =>
    rw [shape] at whole
    cases negative with
    | true => exact absurd shape h
    | false => exact ⟨false, _, _, rfl, .finite ⟨0, 0⟩, whole⟩
  next negative word nonzero shape =>
    rw [shape] at whole
    have same := Decimal.word_shortest (lt_infinityWord_of_parts shape)
    refine ⟨negative, _, _, rfl, .finite (Decimal.shortest word), ?_⟩
    rw [same]
    cases negative <;> exact whole

/-- The tokens of a displayed number are its sign and its magnitude. -/
theorem exists_tokenize_displayText {value : Float} (h : parts value ≠ .finite true 0) :
    ∃ negative magnitude, tokenize (displayText value) = .ok (signedTokens negative magnitude) ∧
      (if negative then -magnitude else magnitude) = value := by
  obtain ⟨negative, text, magnitude, shown, read, whole⟩ := exists_magnitude_displayText h
  refine ⟨negative, magnitude, ?_, whole⟩
  rw [shown]
  exact tokenize_sign negative read.tokenize

/-- The number that is displayed for a number: a negative zero has lost its sign. -/
def unsignZero (value : Float) : Float :=
  if parts value = .finite true 0 then Binary64.ofWord 0 else value

theorem displayText_of_parts_zero {value : Float} {negative : Bool}
    (h : parts value = .finite negative 0) : displayText value = Calculator.untouched := by
  rw [displayText, Spelling.write, h]
  cases negative <;> rfl

theorem displayText_unsignZero (value : Float) :
    displayText (unsignZero value) = displayText value := by
  unfold unsignZero
  split
  next zero =>
    have plain : parts (Binary64.ofWord 0) = .finite false 0 := Binary64.parts_ofWord (by decide)
    rw [displayText_of_parts_zero plain, displayText_of_parts_zero zero]
  · rfl

theorem parts_unsignZero_ne (value : Float) : parts (unsignZero value) ≠ .finite true 0 := by
  unfold unsignZero
  split
  · rw [Binary64.parts_ofWord (by decide)]
    simp
  next signed => exact signed

/-- Only a zero is displayed like an untouched operand. -/
theorem displayText_ne_untouched {value : Float}
    (nonzero : ∀ negative, parts value ≠ .finite negative 0) :
    displayText value ≠ Calculator.untouched := by
  intro same
  obtain ⟨negative, magnitude, read, whole⟩ := exists_tokenize_displayText (nonzero true)
  have zero : tokenize Calculator.untouched = .ok [.number (Binary64.ofWord 0)] :=
    tokenize_layout ⟨0, 0⟩
  rw [same, zero] at read
  cases negative with
  | true => cases read
  | false =>
    cases read
    refine nonzero false ?_
    rw [← whole]
    exact Binary64.parts_ofWord (by decide)

theorem displayText_ne_failure (value : Float) : displayText value ≠ Calculator.failure := by
  unfold displayText Spelling.write
  split
  · decide
  next negative _ => cases negative <;> decide
  next negative _ => cases negative <;> decide
  next negative word _ _ =>
    intro same
    have member : 'E' ∈ Spelling.sign negative ++ (Decimal.shortest word).layout := by
      rw [same]
      decide
    rcases List.mem_append.mp member with inSign | inLayout
    · cases negative <;> exact absurd inSign (by decide)
    · rw [← Decimal.text_literal] at inLayout
      exact absurd (Literal.isNumeric_of_mem_text _ 'E' inLayout) (by decide)

end PocketCalc
