import PocketCalc.Proofs.Entry
import PocketCalc.Proofs.OperatorChoice

/-!
# A zero as the operand

A zero that was typed or computed is the text of an operand that has not been touched. A mark
commits every other operand that stands behind no closing parenthesis, and drops a zero.
-/
namespace PocketCalc

/-- The keys that leave an operand: the digits, the point and an evaluation. -/
def Key.entersOperand : Key → Bool
  | .digit character => isNumeric character
  | .evaluate => true
  | _ => false

theorem enter_ne_nil (current : Text) (character : Char) : enter current character ≠ [] := by
  unfold enter
  split
  next present =>
    intro empty
    simp [empty] at present
  · split <;> simp

namespace Calculator

variable {calculator : Calculator}

theorem recovered_ne_failure (text : Text) : recovered text ≠ failure := by
  unfold recovered
  split
  · decide
  next usable => exact usable

/-- A digit or a result leaves an operand. -/
theorem current_press_enters {key : Key} (enters : key.entersOperand = true)
    (computed : key = .evaluate → (calculator.press key).current ≠ failure) :
    (calculator.press key).current ≠ failure ∧ (calculator.press key).current ≠ [] := by
  cases key with
  | digit character =>
    rw [press, typeDigit_eq _ enters]
    constructor
    · exact enter_ne_failure enters (recovered_ne_failure _)
    · exact enter_ne_nil _ _
  | evaluate =>
    constructor
    · exact computed rfl
    · simp only [press, evaluate, resultText]
      split
      · exact displayText_ne_nil _
      · exact failure_ne_nil
  | _ => cases enters

theorem operand_of_unclosed (unclosed : calculator.pending.getLast? ≠ some ')') :
    calculator.operand = calculator.current := by
  simp [operand, unclosed]

/-- What an operator leaves committed behind an operand. -/
theorem pending_press_operator (usable : calculator.current ≠ failure)
    (typed : calculator.current ≠ []) {character : Char} (operator : character ∈ operators) :
    (calculator.press (.operator character)).pending =
      (if calculator.current = untouched then
        if endsInOperator calculator.pending then calculator.pending.dropLast
        else calculator.pending
      else calculator.pending ++ calculator.current) ++ [character] := by
  have present : ¬ (calculator.current = [] ∧ calculator.pending = []) :=
    fun nothing => typed nothing.1
  have same : calculator.recover = calculator := if_neg usable
  rw [press_operator calculator operator, if_neg present, chosen, same]
  rfl

/-- What a parenthesis leaves committed behind an operand. -/
theorem pending_press_parenthesis (usable : calculator.current ≠ failure)
    (unclosed : calculator.pending.getLast? ≠ some ')') {character : Char}
    (parenthesis : character = '(' ∨ character = ')') :
    (calculator.press (.parenthesis character)).pending =
      (if calculator.current = untouched then calculator.pending
      else calculator.pending ++ calculator.current) ++ [character] := by
  simp only [press, typeParenthesis, if_pos parenthesis, recover, if_neg usable,
    insertParenthesis]
  by_cases zero : calculator.current = untouched
  · simp only [zero, if_true]
    split
    next first => simp [first]
    · rfl
  · simp [zero, push, commit, operand_of_unclosed unclosed]

/-- An operator or a parenthesis commits the operand that was typed or computed exactly if it is
not displayed as zero. A zero is dropped, and an operator also takes the place of one before it. -/
theorem commits_entered_iff {key : Key} (enters : key.entersOperand = true)
    (computed : key = .evaluate → (calculator.press key).current ≠ failure)
    (unclosed : (calculator.press key).pending.getLast? ≠ some ')')
    {operator parenthesis : Char} (known : operator ∈ operators)
    (known' : parenthesis = '(' ∨ parenthesis = ')') :
    let entered := calculator.press key
    ((entered.press (.operator operator)).pending =
        entered.pending ++ entered.current ++ [operator] ↔ entered.current ≠ untouched) ∧
      ((entered.press (.parenthesis parenthesis)).pending =
        entered.pending ++ entered.current ++ [parenthesis] ↔ entered.current ≠ untouched) ∧
      (entered.current = untouched →
        (entered.press (.operator operator)).pending =
          (if endsInOperator entered.pending then entered.pending.dropLast
          else entered.pending) ++ [operator] ∧
        (entered.press (.parenthesis parenthesis)).pending = entered.pending ++ [parenthesis]) := by
  obtain ⟨usable, typed⟩ := current_press_enters enters computed
  dsimp only
  generalize calculator.press key = entered at *
  rw [pending_press_operator usable typed known,
    pending_press_parenthesis usable unclosed known']
  by_cases zero : entered.current = untouched
  · have shorter : (if endsInOperator entered.pending then entered.pending.dropLast
        else entered.pending).length ≤ entered.pending.length := by
      split
      · simp
      · simp
    simp only [zero, if_true, ne_eq, not_true_eq_false, iff_false, List.append_cancel_right_eq]
    refine ⟨?_, ?_, fun _ => ⟨trivial, trivial⟩⟩
    · intro same
      have length := congrArg List.length same
      simp [untouched] at length
      omega
    · intro same
      simp [untouched] at same
  · simp [zero]

/-- A zero is typed after `5+`: the operator that follows takes the place of the sum. -/
theorem commits_entered_iff_zero :
    let entered := ((start .radians false).pressAll [.digit '5', .operator '+']).press (.digit '0')
    ¬ ((entered.press (.operator '*')).pending = entered.pending ++ entered.current ++ ['*']) ∧
      ¬ ((entered.press (.parenthesis ')')).pending =
        entered.pending ++ entered.current ++ [')']) := by
  have laws := @commits_entered_iff ((start .radians false).pressAll [.digit '5', .operator '+'])
    (.digit '0') rfl (by decide) (by decide) '*' ')' (by decide) (by decide)
  constructor
  · rw [laws.1]
    decide
  · rw [laws.2.1]
    decide

/-- A number that was typed is lost: `5+0` is committed as `5*` by the operator after it. -/
theorem typed_zero_lost :
    let entered := (start .radians false).pressAll [.digit '5', .operator '+', .digit '0']
    entered.pending = "5+".toList ∧ entered.current = untouched ∧
      (entered.press (.operator '*')).pending = "5*".toList ∧
      (entered.press (.operator '*')).pending ≠ entered.pending ++ entered.current ++ ['*'] := by
  decide

end Calculator

end PocketCalc
