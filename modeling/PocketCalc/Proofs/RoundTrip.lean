import PocketCalc.Proofs.Typing

/-!
# Displayed numbers as operands and as expressions

A displayed number is read in two ways: as the operand that a function is applied to, and as an
expression of its own. Both give back the number that was displayed, but for the sign of a zero,
which is not displayed. What an evaluation leaves on the display is therefore evaluated to itself.
-/
namespace PocketCalc

open Binary64 (parts ofWord)

theorem toLower_of_isNumeric {character : Char} (h : isNumeric character = true) :
    character.toLower = character := by
  apply Char.toLower_eq_of_not_isUpper
  rcases Bool.or_eq_true_iff.mp h with digit | point
  · have bounds : 48 ≤ character.toNat ∧ character.toNat ≤ 57 := Char.isDigit_iff_toNat.mp digit
    simp only [Char.isUpper, decide_eq_true_eq]
    intro upper
    have : 65 ≤ character.toNat := upper.1
    omega
  · rw [beq_iff_eq.mp point]
    decide

/-- The words of the reader are spelled with letters, which a literal has none of. -/
theorem Literal.text_ne_word (literal : Literal) {letter : Char} {word : Text}
    (quiet : isNumeric letter = false) : literal.text ≠ letter :: word := by
  intro same
  have numeric := literal.isNumeric_of_mem_text letter (by simp [same])
  simp [quiet] at numeric

theorem Literal.unsigned?_text (literal : Literal) :
    Number.unsigned? literal.text = some literal.value := by
  have lower : literal.text.map Char.toLower = literal.text := by
    have kept : ∀ character ∈ literal.text, character.toLower = id character :=
      fun character member => toLower_of_isNumeric (literal.isNumeric_of_mem_text character member)
    rw [List.map_congr_left kept, List.map_id]
  have absent : ¬ (literal.text = "inf".toList ∨ literal.text = "infinity".toList) := by
    rintro (same | same)
    · exact literal.text_ne_word (by decide) same
    · exact literal.text_ne_word (by decide) same
  have other : literal.text ≠ "nan".toList := literal.text_ne_word (by decide)
  unfold Number.unsigned? Number.scaled?
  simp only [lower, if_neg absent, if_neg other, literal.span_text, literal.isEmpty_numeral]
  simp [Number.powerOfTen?, Literal.value]

theorem ne_sign_of_isNumeric {character : Char} (numeric : isNumeric character = true) :
    character ≠ '-' ∧ character ≠ '+' := by
  constructor
  · rintro rfl
    cases numeric
  · rintro rfl
    cases numeric

/-- A sign is only taken off a text that begins with one. -/
theorem Number.splitSign_sign (negative : Bool) {text : Text}
    (plain : ∀ character ∈ text.head?, character ≠ '-' ∧ character ≠ '+') :
    splitSign (Spelling.sign negative ++ text) = (negative, text) := by
  cases negative with
  | true => rfl
  | false =>
    cases text with
    | nil => rfl
    | cons character rest =>
      obtain ⟨minus, plus⟩ := plain character rfl
      simp [Spelling.sign, splitSign, minus, plus]

theorem Literal.read?_text (literal : Literal) :
    Number.read? literal.text = some literal.value := by
  have plain : ∀ character ∈ literal.text.head?, character ≠ '-' ∧ character ≠ '+' :=
    fun character member =>
      ne_sign_of_isNumeric (literal.isNumeric_of_mem_text character (List.mem_of_head? member))
  have split : Number.splitSign literal.text = (false, literal.text) :=
    Number.splitSign_sign false plain
  simp [Number.read?, split, literal.unsigned?_text]

namespace Magnitude

variable {text : Text} {magnitude : Float}

theorem unsigned? (h : Magnitude text magnitude) : Number.unsigned? text = some magnitude := by
  cases h with
  | notANumber =>
    have lower : "NaN".toList.map Char.toLower = "nan".toList := by decide
    simp only [Number.unsigned?, lower]
    rw [if_neg (by decide), if_pos trivial]
  | infinity =>
    have lower : "Infinity".toList.map Char.toLower = "infinity".toList := by decide
    simp only [Number.unsigned?, lower]
    rw [if_pos (by decide)]
  | finite decimal => rw [← Decimal.text_literal, Literal.unsigned?_text, Decimal.value_literal]

theorem head?_ne_sign (h : Magnitude text magnitude) :
    ∀ character ∈ text.head?, character ≠ '-' ∧ character ≠ '+' := by
  intro character member
  cases h with
  | notANumber | infinity =>
    cases member
    decide
  | finite decimal =>
    rw [← Decimal.text_literal] at member
    exact ne_sign_of_isNumeric
      (decimal.literal.isNumeric_of_mem_text character (List.mem_of_head? member))

/-- A magnitude after a sign is read as the signed number. -/
theorem read?_sign (h : Magnitude text magnitude) (negative : Bool) :
    Number.read? (Spelling.sign negative ++ text) =
      some (if negative then -magnitude else magnitude) := by
  simp [Number.read?, Number.splitSign_sign negative h.head?_ne_sign, h.unsigned?]

end Magnitude

theorem readOperand_displayText {value : Float} (h : parts value ≠ .finite true 0) :
    readOperand (displayText value) = .ok value := by
  obtain ⟨negative, text, magnitude, shown, read, whole⟩ := exists_magnitude_displayText h
  simp [readOperand, shown, read.read?_sign, whole]

theorem evaluateTokens_number (value : Float) :
    Evaluation.evaluateTokens [.number value] = .ok value :=
  Evaluation.evaluateTokens_tokens
    (.chain (.chain (.unraised (.unsigned (.number value))) .done) .done)

/-- A text of one number is evaluated to it, with the sign before it. -/
theorem evaluate_sign (negative : Bool) {text : Text} {magnitude : Float}
    (read : tokenize text = .ok [.number magnitude]) :
    evaluate (Spelling.sign negative ++ text) =
      .ok (if negative then -magnitude else magnitude) := by
  have signed := evaluateTokens_signedTokens negative magnitude []
  rw [List.append_nil, evaluateTokens_number] at signed
  simp [evaluate, tokenize_sign negative read, signed]

theorem evaluate_displayText {value : Float} (h : parts value ≠ .finite true 0) :
    evaluate (displayText value) = .ok value := by
  obtain ⟨negative, text, magnitude, shown, read, whole⟩ := exists_magnitude_displayText h
  rw [shown, evaluate_sign negative read.tokenize, whole]

theorem parts_eq_negativeZero_iff (value : Float) :
    parts value = .finite true 0 ↔ value.toBits = 0x8000000000000000 := by
  have bound : value.toBits.toNat < 2 ^ 64 := value.toBits.toNat_lt
  rw [← UInt64.toNat_inj]
  unfold parts Binary64.infinityWord
  dsimp only
  split
  · simp only [Binary64.Parts.finite.injEq, decide_eq_true_eq]
    show _ ↔ value.toBits.toNat = 2 ^ 63
    omega
  next large =>
    have apart : value.toBits.toNat ≠ 2 ^ 63 := by
      omega
    split
    · simpa using apart
    · simpa using apart

theorem toBits_unsignZero (value : Float) :
    (unsignZero value).toBits = if value.toBits = 0x8000000000000000 then 0 else value.toBits := by
  have zero : (ofWord 0).toBits = 0 :=
    UInt64.toNat_inj.mp (Binary64.toNat_toBits_ofWord (Nat.zero_le _))
  simp only [unsignZero, parts_eq_negativeZero_iff]
  split
  · exact zero
  · rfl

namespace Calculator

theorem resultText_displayText (value : Float) :
    resultText (displayText value) = displayText value := by
  have read := evaluate_displayText (parts_unsignZero_ne value)
  rw [displayText_unsignZero] at read
  simp [resultText, read, displayText_unsignZero]

theorem tokenize_failure : tokenize failure = .error (.unrecognizedToken failure) :=
  tokenize_letters (by decide) shown_failure (by decide)

theorem resultText_failure : resultText failure = failure := by
  simp [resultText, PocketCalc.evaluate, tokenize_failure]

/-- Evaluating what an evaluation has shown changes nothing. -/
theorem resultText_resultText (text : Text) : resultText (resultText text) = resultText text := by
  cases result : PocketCalc.evaluate text with
  | ok value =>
    have shown : resultText text = displayText value := by simp [resultText, result]
    rw [shown, resultText_displayText]
  | error error =>
    have shown : resultText text = failure := by simp [resultText, result]
    rw [shown, resultText_failure]

theorem evaluate_evaluate (calculator : Calculator) :
    calculator.evaluate.evaluate = calculator.evaluate := by
  have operand : calculator.evaluate.operand = calculator.evaluate.current := by
    simp [operand, evaluate]
  have again : resultText (calculator.evaluate.pending ++ calculator.evaluate.operand) =
      calculator.evaluate.current := by
    rw [operand]
    exact resultText_resultText _
  rw [evaluate, again]
  rfl

end Calculator

/-- Every displayed number is read back, as an operand and as an expression, to the number itself
bit for bit, but for a negative zero that has lost its sign. Hence it is displayed alike again, and
evaluating a second time changes nothing in any state. -/
theorem readBack_displayText :
    (∀ value : Float, ∃ read : Float,
      readOperand (displayText value) = .ok read ∧ evaluate (displayText value) = .ok read ∧
        read.toBits = (if value.toBits = 0x8000000000000000 then 0 else value.toBits) ∧
        displayText read = displayText value) ∧
      ∀ calculator : Calculator,
        (calculator.press .evaluate).press .evaluate = calculator.press .evaluate := by
  constructor
  · intro value
    have signed := parts_unsignZero_ne value
    refine ⟨unsignZero value, ?_, ?_, toBits_unsignZero value, displayText_unsignZero value⟩
    · rw [← displayText_unsignZero]
      exact readOperand_displayText signed
    · rw [← displayText_unsignZero]
      exact evaluate_displayText signed
  · intro calculator
    exact calculator.evaluate_evaluate

end PocketCalc
