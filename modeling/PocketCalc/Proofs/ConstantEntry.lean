import PocketCalc.Proofs.OperatorChoice

/-!
# Constants behind operators and opening parentheses

An operator and an opening parenthesis leave an operand that has not been touched, and a constant
takes its place. Only an opening parenthesis before all else leaves no operand at all, and there a
constant is ignored.
-/
namespace PocketCalc

namespace Calculator

/-- The keys that an operand is due behind: an operator that is committed, and an opening
parenthesis. -/
inductive Opens (calculator : Calculator) : Key → Prop
  | operator {character : Char}
      (committed : (calculator.press (.operator character)).pending ≠ calculator.pending) :
      Opens calculator (.operator character)
  | parenthesis : Opens calculator (.parenthesis '(')

/-- An opening parenthesis that nothing has been typed before. -/
def OpensFirst (calculator : Calculator) (key : Key) : Prop :=
  key = .parenthesis '(' ∧ calculator.pending = [] ∧ recovered calculator.current = untouched

variable (calculator : Calculator)

/-- A constant in any state: it takes the place of an operand that is untouched or has failed. -/
theorem press_constant (constant : Constant) :
    calculator.press (.constant constant) =
      { calculator with
        current := if recovered calculator.current = untouched then displayText constant.value
          else calculator.current } := by
  simp only [press, typeConstant, current_recover]
  rw [recover_eq]
  split
  · rfl
  next touched =>
    have usable : calculator.current ≠ failure := by
      intro failed
      exact touched (if_pos failed)
    rw [recovered, if_neg usable]

theorem current_press_operator {character : Char}
    (committed : (calculator.press (.operator character)).pending ≠ calculator.pending) :
    (calculator.press (.operator character)).current = untouched := by
  by_cases operator : character ∈ operators
  · rw [press_operator calculator operator] at committed ⊢
    split at committed
    · exact absurd rfl committed
    next preceded =>
      rw [if_neg preceded]
      rfl
  · rw [press, typeOperator, if_neg operator] at committed
    exact absurd rfl committed

theorem press_opening_first (first : calculator.OpensFirst (.parenthesis '(')) :
    calculator.press (.parenthesis '(') =
      { calculator with pending := ['('], current := [] } := by
  obtain ⟨-, empty, fresh⟩ := first
  rw [press, typeParenthesis, if_pos (Or.inl rfl), recover_eq, insertParenthesis, if_pos fresh,
    if_pos empty]

theorem current_press_opening (preceded : ¬ calculator.OpensFirst (.parenthesis '(')) :
    (calculator.press (.parenthesis '(')).current = untouched := by
  rw [press, typeParenthesis, if_pos (Or.inl rfl), recover_eq, insertParenthesis]
  split
  next fresh =>
    split
    next empty => exact absurd ⟨rfl, empty, fresh⟩ preceded
    · exact fresh
  · rfl

/-- What a key leaves that an operand is due behind. -/
theorem Opens.current {key : Key} (opens : calculator.Opens key)
    (preceded : ¬ calculator.OpensFirst key) : (calculator.press key).current = untouched := by
  cases opens with
  | operator committed => exact calculator.current_press_operator committed
  | parenthesis => exact calculator.current_press_opening preceded

/-- Behind an operator that was committed or an opening parenthesis, a constant fills the operand
unless the parenthesis came before all else, and keeps what is committed. Behind a first parenthesis
it does nothing. -/
theorem constant_fills_iff {key : Key} (opens : calculator.Opens key) (constant : Constant) :
    let opened := calculator.press key
    let filled := opened.press (.constant constant)
    filled.pending = opened.pending ∧
      (filled.current = displayText constant.value ↔ ¬ calculator.OpensFirst key) ∧
      (calculator.OpensFirst key →
        filled = opened ∧ opened.pending = ['('] ∧ opened.current = []) := by
  intro opened filled
  have closed : filled = _ := opened.press_constant constant
  by_cases first : calculator.OpensFirst key
  · have left : opened = { calculator with pending := ['('], current := [] } := by
      obtain rfl := first.1
      exact calculator.press_opening_first first
    have ignored : filled = opened := by
      rw [closed, left]
      rfl
    have missing : filled.current ≠ displayText constant.value := by
      rw [ignored, left]
      exact (displayText_ne_nil _).symm
    refine ⟨by rw [ignored], ?_, ?_⟩
    · simp [missing, first]
    · intro _
      exact ⟨ignored, by rw [left], by rw [left]⟩
  · have fresh : opened.current = untouched := opens.current calculator first
    have typed : filled.current = displayText constant.value := by
      rw [closed, fresh]
      rfl
    refine ⟨by rw [closed], ?_, ?_⟩
    · simp [typed, first]
    · intro first'
      exact absurd first' first

/-- Behind `2*` a constant is typed at once, and also behind a parenthesis. -/
theorem constant_fills_iff_product :
    let two := (start .degrees true).press (.digit '2')
    let product := two.press (.operator '*')
    two.Opens (.operator '*') ∧ product.Opens (.parenthesis '(') ∧
      (product.press (.constant .e)).current = displayText Constant.e.value ∧
      ((product.press (.parenthesis '(')).press (.constant .pi)).current =
        displayText Constant.pi.value := by
  intro two product
  have committed : two.Opens (.operator '*') := .operator (by decide)
  refine ⟨committed, .parenthesis, ?_, ?_⟩
  · rw [(constant_fills_iff two committed .e).2.1]
    rintro ⟨other, -⟩
    cases other
  · rw [(constant_fills_iff product .parenthesis .pi).2.1]
    rintro ⟨-, empty, -⟩
    exact absurd empty (by decide)

/-- Behind a first parenthesis there is nothing to replace: the constant is lost. -/
theorem constant_lost_behind_first_parenthesis :
    let opened := (start .radians false).pressAll [.parenthesis '(']
    opened.pending = "(".toList ∧ opened.current = [] ∧
      opened.press (.constant .pi) = opened ∧
      (opened.press (.constant .pi)).current ≠ displayText Constant.pi.value := by
  intro opened
  refine ⟨rfl, rfl, rfl, ?_⟩
  exact (displayText_ne_nil _).symm

end Calculator

end PocketCalc
