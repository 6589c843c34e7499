import PocketCalc.Proofs.OperandForm
import PocketCalc.Proofs.OperatorChoice

/-!
# The shape of the display

Whatever is typed, the operand under edit is a failure, missing right after a first parenthesis, or
an operand that could be committed. What is committed is a row of operands and marks: each operand
is followed by the mark that ended it, and an operator that was typed directly after another has
taken its place.
-/
namespace PocketCalc

open Calculator (untouched failure endsInOperator endsInOperator_concat recovered)

/-- The characters that are committed one by one. -/
def isMark (character : Char) : Bool :=
  decide (character ∈ operators) || character == '(' || character == ')'

/-- A row of marks and of operands with a mark behind each. -/
inductive Segmented : Text → Prop
  | nothing : Segmented []
  | mark {front : Text} {character : Char} (before : Segmented front)
      (known : isMark character = true)
      (apart : character ∈ operators → endsInOperator front = false) :
      Segmented (front ++ [character])
  | operand {front operand : Text} {character : Char} (before : Segmented front)
      (form : OperandText operand) (touched : operand ≠ untouched)
      (known : isMark character = true) : Segmented (front ++ operand ++ [character])

namespace Segmented

variable {text : Text}

theorem getLast?_isMark (h : Segmented text) (typed : text ≠ []) :
    text.getLast?.any isMark = true := by
  cases h with
  | nothing => exact absurd rfl typed
  | mark before known => simp [known]
  | operand before form touched known => simp [known]

/-- An operator at the end gives way to another. -/
theorem replace (h : Segmented text) (ended : endsInOperator text = true) {character : Char}
    (operator : character ∈ operators) : Segmented (text.dropLast ++ [character]) := by
  have known : isMark character = true := by simp [isMark, operator]
  cases h with
  | nothing => cases ended
  | @mark front former before _ apart =>
    rw [endsInOperator_concat, decide_eq_true_eq] at ended
    rw [List.dropLast_concat]
    apply before.mark known
    intro _
    exact apart ended
  | operand before form touched _ =>
    rw [List.dropLast_concat]
    exact before.operand form touched known

end Segmented

/-- What is under edit: a failure, nothing at all, or an operand. -/
def Editable (text : Text) : Prop :=
  text = failure ∨ text = [] ∨ OperandText text

namespace Editable

variable {text edited : Text}

theorem recovered (h : Editable text) :
    Calculator.recovered text = [] ∨ OperandText (Calculator.recovered text) := by
  unfold Calculator.recovered
  split
  · right
    exact .untouched
  next usable => exact h.resolve_left usable

theorem edit (h : Editable text) (edit : Calculator.Edited text edited) : Editable edited := by
  cases edit with
  | kept => exact h
  | failed =>
    left
    rfl
  | reset =>
    right; right
    exact .untouched
  | computed value =>
    right; right
    exact .displayText value
  | begun numeric =>
    right; right
    exact .singleton numeric
  | @extended character numeric single pointed =>
    right; right
    rcases h.recovered with empty | operand
    · rw [empty]
      exact .singleton numeric
    · apply operand.concat numeric single
      intro fresh
      rw [pointed fresh]
      rfl
  | shortened usable typed unsigned =>
    right; right
    rcases h with failed | empty | operand
    · exact absurd failed usable
    · rw [empty] at typed
      exact absurd rfl typed
    · exact operand.dropLast typed unsigned

end Editable

theorem resultText_eq_failure_or (text : Text) :
    Calculator.resultText text = failure ∨ OperandText (Calculator.resultText text) := by
  unfold Calculator.resultText
  split
  · right
    exact .displayText _
  · left
    rfl

/-- The shape of both texts of the display between two keys. -/
structure Shaped (calculator : Calculator) : Prop where
  current : Editable calculator.current
  pending : Segmented calculator.pending
  opened : calculator.current = [] → calculator.pending = ['('] ∨ calculator.pending = [')']

namespace Shaped

variable {calculator : Calculator}

/-- A display with an operand under edit. -/
theorem of_operand (current : OperandText calculator.current)
    (pending : Segmented calculator.pending) : Shaped calculator where
  current := Or.inr (Or.inr current)
  pending := pending
  opened := fun empty => absurd empty current.form.ne_nil

theorem start (angleMode : AngleMode) (inverse : Bool) : Shaped (.start angleMode inverse) := by
  apply of_operand
  · exact .untouched
  · exact .nothing

theorem edit (h : Shaped calculator) {key : Key} (edits : key.editsOperand = true) :
    Shaped (calculator.press key) := by
  have edited := Calculator.edited_press edits calculator
  have kept := Calculator.pending_press edits calculator
  constructor
  · exact h.current.edit edited
  · rw [kept]
    exact h.pending
  · intro empty
    rw [kept]
    apply h.opened
    apply Decidable.not_not.mp
    intro typed
    exact edited.ne_nil typed empty

theorem recover (h : Shaped calculator) :
    Shaped calculator.recover ∧ calculator.recover.current ≠ failure := by
  unfold Calculator.recover
  split
  · constructor
    · exact of_operand .untouched h.pending
    · exact OperandText.untouched.form.ne_failure
  next usable => exact ⟨h, usable⟩

/-- A mark goes behind the operand, if there is one. -/
theorem commit_push (h : Shaped calculator) (usable : calculator.current ≠ failure)
    {character : Char} (known : isMark character = true)
    (behind : calculator.current = untouched → calculator.pending.getLast? = some ')') :
    Shaped (calculator.commit.push character) := by
  have alone (apart : endsInOperator calculator.pending = false) :
      Segmented (calculator.pending ++ [] ++ [character]) := by
    rw [List.append_nil]
    apply h.pending.mark known
    intro _
    exact apart
  apply of_operand
  · exact .untouched
  · simp only [Calculator.push, Calculator.commit, Calculator.operand]
    split
    next closed =>
      apply alone
      simp [endsInOperator, closed.2, operators]
    next open_ =>
      rcases h.current with failed | empty | operand
      · exact absurd failed usable
      · rw [empty]
        apply alone
        rcases h.opened empty with first | first
        · rw [first]
          rfl
        · rw [first]
          rfl
      · apply h.pending.operand operand _ known
        intro fresh
        exact open_ ⟨fresh, behind fresh⟩

theorem insertOperator (h : Shaped calculator) (usable : calculator.current ≠ failure)
    {character : Char} (operator : character ∈ operators) :
    Shaped (calculator.insertOperator character) := by
  have known : isMark character = true := by simp [isMark, operator]
  unfold Calculator.insertOperator
  split
  · exact h
  split
  next typed =>
    apply h.commit_push usable known
    intro fresh
    exact typed.resolve_left (absurd fresh)
  next idle =>
    obtain ⟨fresh, -⟩ := not_or.mp idle
    have operand : OperandText calculator.current := by
      rw [Decidable.not_not.mp fresh]
      exact .untouched
    split
    next ended =>
      apply of_operand
      · exact operand
      · exact h.pending.replace ended operator
    next free =>
      apply of_operand
      · exact operand
      · apply h.pending.mark known
        intro _
        simpa using free

theorem insertParenthesis (h : Shaped calculator) (usable : calculator.current ≠ failure)
    {character : Char} (parenthesis : character = '(' ∨ character = ')') :
    Shaped (calculator.insertParenthesis character) := by
  have known : isMark character = true := by
    rcases parenthesis with rfl | rfl <;> decide
  have apart (text : Text) : character ∈ operators → endsInOperator text = false := by
    rcases parenthesis with rfl | rfl <;> intro operator <;> exact absurd operator (by decide)
  unfold Calculator.insertParenthesis
  split
  next fresh =>
    split
    · constructor
      · right; left
        rfl
      · exact Segmented.nothing.mark known (apart [])
      · intro _
        simpa using parenthesis
    · apply of_operand
      · show OperandText calculator.current
        rw [fresh]
        exact .untouched
      · exact h.pending.mark known (apart _)
  next touched =>
    apply h.commit_push usable known
    intro fresh
    exact absurd fresh touched

theorem evaluate (calculator : Calculator) : Shaped calculator.evaluate := by
  rcases resultText_eq_failure_or (calculator.pending ++ calculator.operand) with failed | operand
  · constructor
    · left
      exact failed
    · exact .nothing
    · intro empty
      exact absurd (failed.symm.trans empty) Calculator.failure_ne_nil
  · exact of_operand operand .nothing

/-- One key keeps the shape. -/
theorem press (h : Shaped calculator) (key : Key) : Shaped (calculator.press key) := by
  cases key with
  | operator character =>
    simp only [Calculator.press, Calculator.typeOperator]
    split
    next operator => exact h.recover.1.insertOperator h.recover.2 operator
    · exact h
  | parenthesis character =>
    simp only [Calculator.press, Calculator.typeParenthesis]
    split
    next parenthesis => exact h.recover.1.insertParenthesis h.recover.2 parenthesis
    · exact h
  | clear =>
    apply of_operand
    · exact .untouched
    · exact .nothing
  | evaluate => exact Shaped.evaluate calculator
  | digit | constant | function | delete | toggleAngleMode | toggleInverse => exact h.edit rfl

theorem pressAll (h : Shaped calculator) (keys : List Key) : Shaped (calculator.pressAll keys) := by
  induction keys generalizing calculator with
  | nil => exact h
  | cons key keys ih => exact ih (h.press key)

end Shaped

/-- In every state that can be reached, the operand under edit has one of the forms and the
committed text is a row of operands and marks. -/
theorem Calculator.pressAll_start_shape (angleMode : AngleMode) (inverse : Bool)
    (keys : List Key) :
    let calculator := (Calculator.start angleMode inverse).pressAll keys
    (calculator.current = failure ∨
        calculator.current = [] ∧ (calculator.pending = ['('] ∨ calculator.pending = [')']) ∨
        OperandForm calculator.current) ∧
      calculator.current ≠ ['-'] ∧
      (calculator.current <+: failure → calculator.current = [] ∨ calculator.current = failure) ∧
      calculator.current.count '.' ≤ 1 ∧ hasLeadingZero calculator.current = false ∧
      Segmented calculator.pending ∧
      (calculator.pending = [] ∨ calculator.pending.getLast?.any isMark = true) := by
  intro calculator
  have shape : Shaped calculator := (Shaped.start angleMode inverse).pressAll keys
  have ended : calculator.pending = [] ∨ calculator.pending.getLast?.any isMark = true := by
    by_cases empty : calculator.pending = []
    · left
      exact empty
    · right
      exact shape.pending.getLast?_isMark empty
  rcases shape.current with failed | empty | operand
  · rw [failed]
    refine ⟨Or.inl rfl, by decide, fun _ => Or.inr rfl, by decide, by decide, shape.pending, ended⟩
  · refine ⟨Or.inr (Or.inl ⟨empty, shape.opened empty⟩), ?_, fun _ => Or.inl empty, ?_, ?_,
      shape.pending, ended⟩
    · simp [empty]
    · simp [empty]
    · simp [empty, hasLeadingZero]
  · refine ⟨Or.inr (Or.inr operand.form), operand.form.ne_minus, ?_, operand.form.count_point,
      operand.trimmed, shape.pending, ended⟩
    intro beginning
    exact absurd beginning operand.form.not_prefix_failure

end PocketCalc
