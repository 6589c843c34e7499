import PocketCalc.Proofs.Literal
import PocketCalc.Proofs.OperandEdit

/-!
# Entering a literal

The digit keys enter a literal into an operand that is untouched or empty. What stands there
afterwards may be spelled without the leading zeros, or with one more before the point, but it is a
literal with the same value.
-/
namespace PocketCalc

open Calculator (untouched)

/-- The operand after one more digit or point. -/
def enter (current : Text) (character : Char) : Text :=
  if character = '.' ∧ '.' ∈ current then current
  else if current = untouched ∧ character ≠ '.' then [character]
  else current ++ [character]

/-- A digit is entered into what is left of the operand, which is nothing of a failure. -/
theorem Calculator.typeDigit_eq (calculator : Calculator) {character : Char}
    (numeric : isNumeric character = true) :
    calculator.typeDigit character =
      { calculator with current := enter (recovered calculator.current) character } := by
  simp only [typeDigit, if_pos numeric, recover, recovered]
  by_cases failed : calculator.current = failure
  · simp only [if_pos failed, insertDigit, enter]
    repeat' split
    all_goals rfl
  · simp only [if_neg failed, insertDigit, enter]
    repeat' split
    all_goals rfl

theorem Calculator.press_digit {calculator : Calculator} {character : Char}
    (numeric : isNumeric character = true) (usable : calculator.current ≠ Calculator.failure) :
    calculator.press (.digit character) =
      { calculator with current := enter calculator.current character } := by
  rw [press, typeDigit_eq _ numeric, recovered, if_neg usable]

/-- What is entered ends in the new character, unless it is kept as it was. -/
theorem enter_ne {current text : Text} {character : Char} (apart : current ≠ text)
    (last : text.getLast? ≠ some character) : enter current character ≠ text := by
  unfold enter
  split
  · exact apart
  · split
    · rintro rfl
      exact last rfl
    · rintro rfl
      exact last List.getLast?_concat

theorem enter_ne_failure {current : Text} {character : Char} (numeric : isNumeric character = true)
    (usable : current ≠ Calculator.failure) : enter current character ≠ Calculator.failure := by
  apply enter_ne usable
  intro same
  have letter : 'r' = character := Option.some.inj same
  subst letter
  cases numeric

theorem enter_digit {current : Text} {character : Char} (digit : character.isDigit = true) :
    enter current character =
      if current = untouched then [character] else current ++ [character] := by
  have point : character ≠ '.' := by
    rintro rfl
    cases digit
  simp [enter, point]

/-- Digits entered into digits stand for the same number as all of them in a row. -/
theorem exists_foldl_enter_digits {typed current : Text}
    (digits : ∀ character ∈ typed, character.isDigit = true)
    (before : ∀ character ∈ current, character.isDigit = true) :
    ∃ whole, typed.foldl enter current = whole ∧
      (∀ character ∈ whole, character.isDigit = true) ∧
      Nat.ofDigitChars 10 whole 0 = Nat.ofDigitChars 10 (current ++ typed) 0 ∧
      (whole = [] → current = [] ∧ typed = []) := by
  induction typed generalizing current with
  | nil => exact ⟨current, rfl, before, by rw [List.append_nil], fun none => ⟨none, rfl⟩⟩
  | cons character typed ih =>
    obtain ⟨digit, others⟩ := List.forall_mem_cons.mp digits
    rw [List.foldl_cons, enter_digit digit]
    by_cases start : current = untouched
    · rw [if_pos start]
      have single : ∀ other ∈ [character], other.isDigit = true :=
        List.forall_mem_singleton.mpr digit
      obtain ⟨whole, same, kept, value, some⟩ := ih others single
      refine ⟨whole, same, kept, ?_, fun none => absurd (some none).1 (List.cons_ne_nil _ _)⟩
      rw [value, start]
      rfl
    · rw [if_neg start]
      have extended : ∀ other ∈ current ++ [character], other.isDigit = true := by
        intro other member
        rcases List.mem_append.mp member with old | new
        · exact before other old
        · rw [List.mem_singleton.mp new]
          exact digit
      obtain ⟨whole, same, kept, value, some⟩ := ih others extended
      refine ⟨whole, same, kept, ?_, fun none => ?_⟩
      · rw [value, List.append_assoc, List.singleton_append]
      · exact absurd (some none).1 (List.append_ne_nil_of_right_ne_nil _ (List.cons_ne_nil _ _))

theorem enter_point {current : Text} (digits : ∀ character ∈ current, character.isDigit = true) :
    enter current '.' = current ++ ['.'] := by
  have absent : '.' ∉ current := fun member => by cases digits '.' member
  simp [enter, absent]

theorem ne_untouched_of_point {whole fraction : Text} : whole ++ '.' :: fraction ≠ untouched := by
  intro same
  have member : '.' ∈ untouched := same ▸ List.mem_append_right _ List.mem_cons_self
  exact absurd member (by decide)

theorem foldl_enter_fraction {whole fraction typed : Text}
    (digits : ∀ character ∈ typed, character.isDigit = true) :
    typed.foldl enter (whole ++ '.' :: fraction) = whole ++ '.' :: (fraction ++ typed) := by
  induction typed generalizing fraction with
  | nil => rw [List.append_nil]; rfl
  | cons character typed ih =>
    obtain ⟨digit, others⟩ := List.forall_mem_cons.mp digits
    rw [List.foldl_cons, enter_digit digit, if_neg ne_untouched_of_point, List.append_assoc,
      List.cons_append, ih others, List.append_assoc, List.singleton_append]

theorem eq_zero_of_ofDigitChars {text : Text}
    (digits : ∀ character ∈ text, character.isDigit = true)
    (zero : Nat.ofDigitChars 10 text 0 = 0) : ∀ character ∈ text, character = '0' := by
  induction text with
  | nil => exact List.forall_mem_nil _
  | cons character text ih =>
    obtain ⟨digit, others⟩ := List.forall_mem_cons.mp digits
    have bounds : 48 ≤ character.toNat ∧ character.toNat ≤ 57 := Char.isDigit_iff_toNat.mp digit
    rw [Nat.ofDigitChars_cons, Nat.ofDigitChars_eq_ofDigitChars_zero] at zero
    obtain ⟨first, rest⟩ := Nat.add_eq_zero_iff.mp zero
    have positive : 0 < 10 ^ text.length := Nat.pow_pos (by decide)
    have none : 10 * 0 + (character.toNat - '0'.toNat) = 0 :=
      (Nat.mul_eq_zero.mp first).resolve_left (Nat.ne_of_gt positive)
    have code : character.toNat = '0'.toNat := by
      have : '0'.toNat = 48 := rfl
      omega
    exact List.forall_mem_cons.mpr ⟨Char.toNat_inj.mp code, ih others rest⟩

namespace Literal

/-- A literal of digits that are not all zero is entered as digits for the same number. -/
theorem exists_foldl_enter_of_none (literal : Literal) (shape : literal.fraction = none)
    {current whole : Text} (entered : literal.whole.foldl enter current = whole)
    (digits : ∀ character ∈ whole, character.isDigit = true)
    (value : Nat.ofDigitChars 10 whole 0 = Nat.ofDigitChars 10 literal.whole 0)
    (filled : whole = [] → literal.whole = []) :
    ∃ entered : Literal, literal.text.foldl enter current = entered.text ∧
      entered.value = literal.value ∧
      (literal.isBareZero = false → entered.text ≠ untouched) := by
  have spelled := literal.spelled
  rw [shape, Option.getD_none, List.append_nil] at spelled
  refine ⟨⟨whole, none, ?_, ?_⟩, ?_, ?_, ?_⟩
  · simpa using digits
  · simpa using fun empty => spelled (filled empty)
  · rw [Literal.text, Literal.text, shape]
    exact entered
  · simp [Literal.value, Literal.numeral, Numeral.decimal, shape, value]
  · intro bare same
    -- A single zero on the display has the value of what was typed, which was then all zeros.
    have untyped : whole = untouched := same
    have zero : Nat.ofDigitChars 10 literal.whole 0 = 0 := by
      rw [← value, untyped]
      rfl
    have zeros := eq_zero_of_ofDigitChars literal.whole_digits zero
    rw [Literal.isBareZero, shape, Bool.eq_false_iff] at bare
    refine bare ?_
    simpa using zeros

/-- A literal with a point is entered with the same digits after it. -/
theorem exists_foldl_enter_of_some (literal : Literal) {fraction : Text}
    (shape : literal.fraction = some fraction) {current whole : Text}
    (entered : literal.whole.foldl enter current = whole)
    (digits : ∀ character ∈ whole, character.isDigit = true)
    (value : Nat.ofDigitChars 10 whole 0 = Nat.ofDigitChars 10 literal.whole 0)
    (filled : whole = [] → literal.whole = []) :
    ∃ entered : Literal, literal.text.foldl enter current = entered.text ∧
      entered.value = literal.value ∧ entered.text ≠ untouched := by
  have spelled := literal.spelled
  rw [shape] at spelled
  have fractionDigits := fraction_digits shape
  refine ⟨⟨whole, some fraction, ?_, ?_⟩, ?_, ?_, ne_untouched_of_point⟩
  · refine List.all_eq_true.mpr ?_
    intro character member
    rcases List.mem_append.mp member with inWhole | inFraction
    · exact digits character inWhole
    · exact fractionDigits character inFraction
  · intro empty
    obtain ⟨noWhole, noFraction⟩ := List.append_eq_nil_iff.mp empty
    exact spelled (List.append_eq_nil_iff.mpr ⟨filled noWhole, noFraction⟩)
  · have point : whole ++ ['.'] = whole ++ '.' :: [] := rfl
    rw [Literal.text, Literal.text, shape]
    dsimp only
    rw [List.foldl_append, entered, List.foldl_cons, enter_point digits, point,
      foldl_enter_fraction fractionDigits, List.nil_append]
  · simp [Literal.value, Literal.numeral, Numeral.decimal, shape, Nat.ofDigitChars_append, value]

/-- Entering a literal leaves a literal of the same value, which is taken for an untouched operand
only if it was spelled with zeros and no point. -/
theorem exists_foldl_enter (literal : Literal) {current : Text}
    (start : current = untouched ∨ current = []) :
    ∃ entered : Literal, literal.text.foldl enter current = entered.text ∧
      entered.value = literal.value ∧
      (literal.isBareZero = false → entered.text ≠ untouched) := by
  have before : ∀ character ∈ current, character.isDigit = true := by
    rcases start with rfl | rfl
    · exact List.forall_mem_singleton.mpr rfl
    · exact List.forall_mem_nil _
  have leading (typed : Text) : Nat.ofDigitChars 10 (current ++ typed) 0 =
      Nat.ofDigitChars 10 typed 0 := by
    rcases start with rfl | rfl <;> rfl
  obtain ⟨whole, entered, digits, value, filled⟩ :=
    exists_foldl_enter_digits literal.whole_digits before
  rw [leading] at value
  cases shape : literal.fraction with
  | none =>
    exact literal.exists_foldl_enter_of_none shape entered digits value fun empty =>
      (filled empty).2
  | some fraction =>
    obtain ⟨typed, same, equal, apart⟩ := literal.exists_foldl_enter_of_some shape entered digits
      value fun empty => (filled empty).2
    exact ⟨typed, same, equal, fun _ => apart⟩

end Literal
end PocketCalc
