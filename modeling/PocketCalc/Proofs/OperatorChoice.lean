import PocketCalc.Proofs.OperandEdit

/-!
# Choosing an operator

An operator is committed behind everything that was committed and the operand. With no operand typed
since the last operator, it takes the place of that operator. After either, the next operator finds
an operator at the end and an untouched operand, and so it only takes the place of the one before.
-/
namespace PocketCalc

namespace Calculator

theorem endsInOperator_concat (text : Text) (character : Char) :
    endsInOperator (text ++ [character]) = decide (character ∈ operators) := by
  simp [endsInOperator]

def withoutOperator (text : Text) : Text :=
  if endsInOperator text then text.dropLast else text

/-- What stands committed before an operator. -/
def stem (calculator : Calculator) : Text :=
  if calculator.current = untouched then withoutOperator calculator.pending
  else calculator.pending ++ calculator.current

theorem withoutOperator_concat (text : Text) {character : Char} (operator : character ∈ operators) :
    withoutOperator (text ++ [character]) = text := by
  simp [withoutOperator, endsInOperator_concat, operator]

theorem withoutOperator_prefix_self (text : Text) : withoutOperator text <+: text := by
  unfold withoutOperator
  split
  · exact List.dropLast_prefix text
  · exact List.prefix_refl text

theorem withoutOperator_of_closing {text : Text} (closed : text.getLast? = some ')') :
    withoutOperator text = text := by
  have mark : ¬ ')' ∈ operators := by decide
  simp [withoutOperator, endsInOperator, closed, mark]

variable (calculator : Calculator)

theorem withoutOperator_prefix_stem :
    withoutOperator calculator.pending <+: calculator.stem := by
  unfold stem
  split
  · exact List.prefix_refl _
  · exact (withoutOperator_prefix_self _).trans (List.prefix_append _ _)

/-- Whichever way an operator takes, it stands behind the stem of the state it is chosen in. -/
theorem insertOperator_eq_stem (character : Char) :
    calculator.insertOperator character =
      if calculator.current = [] ∧ calculator.pending = [] then calculator
      else { calculator with pending := calculator.stem ++ [character], current := untouched } := by
  unfold insertOperator
  split
  · rfl
  by_cases fresh : calculator.current = untouched
  · have same (text : Text) : { calculator with pending := text, current := untouched } =
        { calculator with pending := text } := by rw [← fresh]
    rw [same, stem, if_pos fresh]
    by_cases closed : calculator.pending.getLast? = some ')'
    · rw [if_pos (.inr closed), withoutOperator_of_closing closed]
      simp [commit, push, operand, fresh, closed]
    · rw [if_neg (by simp [fresh, closed]), withoutOperator]
      split
      · rfl
      · rfl
  · rw [if_pos (.inl fresh), stem, if_neg fresh]
    simp [commit, push, operand, fresh]

theorem recovered_eq_nil_iff (text : Text) : recovered text = [] ↔ text = [] := by
  unfold recovered
  split
  next failed => simp [failed, untouched, failure]
  · rfl

/-- The state that an operator leaves where it has something to stand behind. -/
def chosen (character : Char) : Calculator :=
  { calculator with
    pending := calculator.recover.stem ++ [character]
    current := untouched }

/-- An operator in any state: with nothing to stand behind it is ignored. -/
theorem press_operator {character : Char} (operator : character ∈ operators) :
    calculator.press (.operator character) =
      if calculator.current = [] ∧ calculator.pending = [] then calculator
      else calculator.chosen character := by
  rw [press, typeOperator, if_pos operator, insertOperator_eq_stem, chosen]
  simp only [recover_eq, recovered_eq_nil_iff]
  split
  next nothing =>
    have usable : calculator.current ≠ failure := by
      rw [nothing.1]
      exact failure_ne_nil.symm
    rw [recovered, if_neg usable]
  · rfl

/-- The next operator finds the stem that the one before it found. -/
theorem stem_recover_chosen {character : Char} (operator : character ∈ operators) :
    (calculator.chosen character).recover.stem = calculator.recover.stem := by
  have fresh : (calculator.chosen character).recover.current = untouched := by
    rw [current_recover]
    rfl
  rw [stem, if_pos fresh, recover_eq]
  exact withoutOperator_concat _ operator

/-- An operator right after another leaves what it would have left in its place. -/
theorem press_operator_press_operator {former latter : Char} (known : former ∈ operators)
    (operator : latter ∈ operators) :
    (calculator.press (.operator former)).press (.operator latter) =
      calculator.press (.operator latter) := by
  rw [press_operator calculator known]
  split
  · rfl
  next preceded =>
    have typed : ¬ ((calculator.chosen former).current = [] ∧
        (calculator.chosen former).pending = []) := by
      intro nothing
      exact untouched_ne_nil nothing.1
    rw [press_operator _ operator, press_operator _ operator, if_neg typed, if_neg preceded, chosen,
      stem_recover_chosen _ known]
    rfl

/-- Of the operators in a row only the last counts. -/
theorem pressAll_operators_last {front : List Char} {last : Char}
    (known : ∀ character ∈ front ++ [last], character ∈ operators) :
    calculator.pressAll ((front ++ [last]).map .operator) =
      calculator.press (.operator last) := by
  induction front generalizing calculator with
  | nil => rfl
  | cons former front ih =>
    have others : ∀ character ∈ front ++ [last], character ∈ operators :=
      fun character member => known character (List.mem_cons_of_mem former member)
    calc calculator.pressAll ((former :: front ++ [last]).map .operator)
      _ = (calculator.press (.operator former)).pressAll ((front ++ [last]).map .operator) := rfl
      _ = (calculator.press (.operator former)).press (.operator last) := ih _ others
      _ = calculator.press (.operator last) :=
          press_operator_press_operator calculator (known former (by simp)) (known last (by simp))

/-- Operators in a row leave what the last of them leaves. It commits the operand once, or takes the
place of an operator, and keeps all that was committed before that. -/
theorem pressAll_operators {front : List Char} {last : Char}
    (known : ∀ character ∈ front ++ [last], character ∈ operators) :
    let left := calculator.pressAll ((front ++ [last]).map .operator)
    left = calculator.press (.operator last) ∧
      left = (if calculator.current = [] ∧ calculator.pending = [] then calculator
        else calculator.chosen last) ∧
      withoutOperator calculator.pending <+: left.pending := by
  have operator : last ∈ operators := known last (by simp)
  dsimp only
  rw [pressAll_operators_last calculator known, press_operator calculator operator]
  refine ⟨rfl, rfl, ?_⟩
  split
  · exact withoutOperator_prefix_self _
  · have base := withoutOperator_prefix_stem calculator.recover
    simp only [recover_eq] at base
    rw [chosen, recover_eq]
    exact base.trans (List.prefix_append _ _)

/-- Behind `2+` with `13` under edit, two signs and then a division glyph commit `13` once. -/
theorem pressAll_operators_division :
    let calculator : Calculator := ⟨"2+".toList, "13".toList, .radians, false⟩
    (∀ character ∈ ['×', '-'] ++ ['÷'], character ∈ operators) ∧
      calculator.pressAll ((['×', '-'] ++ ['÷']).map .operator) =
        ⟨"2+13÷".toList, "0".toList, .radians, false⟩ := by
  have known : ∀ character ∈ ['×', '-'] ++ ['÷'], character ∈ operators := by simp [operators]
  refine ⟨known, ?_⟩
  rw [(pressAll_operators _ known).2.1]
  rfl

end Calculator

end PocketCalc
