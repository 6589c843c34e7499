import PocketCalc.Proofs.DisplayText

/-!
# Edits of the operand

A key that is no operator, no parenthesis and commits or clears nothing works on the operand alone,
whatever is committed. It keeps the operand a text of displayed characters and never empties it.
-/
namespace PocketCalc

/-- Whether a key changes at most the operand and the modes. -/
def Key.editsOperand : Key → Bool
  | .operator _ | .parenthesis _ | .clear | .evaluate => false
  | _ => true

namespace Calculator

theorem shown_untouched : Shown untouched := by decide

theorem shown_failure : Shown failure := by decide

theorem untouched_ne_nil : untouched ≠ [] := by decide

theorem failure_ne_nil : failure ≠ [] := by decide

/-- What a key does to the operand does not depend on what is committed. -/
theorem press_with_pending {key : Key} (edits : key.editsOperand = true) (calculator : Calculator)
    (text : Text) :
    { calculator with pending := text }.press key =
      { calculator.press key with pending := text } := by
  cases key with
  | operator | parenthesis | clear | evaluate => cases edits
  | digit character =>
    simp only [press, typeDigit, recover, insertDigit]
    repeat' split
    all_goals rfl
  | constant constant =>
    simp only [press, typeConstant, recover]
    repeat' split
    all_goals rfl
  | function function =>
    simp only [press, applyFunction]
    repeat' split
    all_goals rfl
  | delete =>
    simp only [press, delete]
    split <;> rfl
  | toggleAngleMode | toggleInverse => rfl

theorem pending_press {key : Key} (edits : key.editsOperand = true) (calculator : Calculator) :
    (calculator.press key).pending = calculator.pending := by
  have kept := press_with_pending edits calculator calculator.pending
  rw [kept]

/-- The operand that an edit starts from. -/
def recovered (text : Text) : Text :=
  if text = failure then untouched else text

theorem recover_eq (calculator : Calculator) :
    calculator.recover = { calculator with current := recovered calculator.current } := by
  unfold recover recovered
  split <;> rfl

theorem current_recover (calculator : Calculator) :
    calculator.recover.current = recovered calculator.current := by
  rw [recover_eq]

/-- What one key can make of an operand. -/
inductive Edited (text : Text) : Text → Prop
  | kept : Edited text text
  | reset : Edited text untouched
  | failed : Edited text failure
  | computed (value : Float) : Edited text (displayText value)
  | begun {character : Char} (numeric : isNumeric character = true)
      (fresh : recovered text = untouched) : Edited text [character]
  | extended {character : Char} (numeric : isNumeric character = true)
      (single : character = '.' → '.' ∉ recovered text)
      (pointed : recovered text = untouched → character = '.') :
      Edited text (recovered text ++ [character])
  | shortened (usable : text ≠ failure) (typed : text.dropLast ≠ [])
      (unsigned : text.dropLast ≠ ['-']) : Edited text text.dropLast

theorem edited_recovered (text : Text) : Edited text (recovered text) := by
  unfold recovered
  split
  · exact .reset
  · exact .kept

theorem edited_typeDigit (calculator : Calculator) (character : Char) :
    Edited calculator.current (calculator.typeDigit character).current := by
  unfold typeDigit
  split
  next numeric =>
    unfold insertDigit
    simp only [current_recover]
    split
    · rw [current_recover]
      exact edited_recovered _
    next single =>
      split
      next fresh => exact .begun numeric fresh.1
      next typed =>
        apply Edited.extended numeric
        · intro point member
          exact single ⟨point, member⟩
        · intro fresh
          apply Decidable.not_not.mp
          intro digit
          exact typed ⟨fresh, digit⟩
  · exact .kept

/-- A key that edits the operand makes one of these of it. -/
theorem edited_press {key : Key} (edits : key.editsOperand = true) (calculator : Calculator) :
    Edited calculator.current (calculator.press key).current := by
  cases key with
  | operator | parenthesis | clear | evaluate => cases edits
  | digit character => exact edited_typeDigit calculator character
  | constant constant =>
    simp only [press, typeConstant]
    split
    · exact .computed _
    · rw [current_recover]
      exact edited_recovered _
  | function function =>
    simp only [press, applyFunction]
    split
    · exact .kept
    · split
      · exact .computed _
      · exact .failed
  | delete =>
    simp only [press, delete]
    split
    · exact .reset
    next usable =>
      simp only [not_or] at usable
      exact .shortened usable.1 usable.2.1 usable.2.2
  | toggleAngleMode | toggleInverse => exact .kept

/-- An edit leaves displayed characters in the operand. -/
theorem Edited.shown {text edited : Text} (h : Edited text edited) (before : Shown text) :
    Shown edited := by
  cases h with
  | kept => exact before
  | reset => exact shown_untouched
  | failed => exact shown_failure
  | computed value => exact shown_displayText value
  | begun numeric => exact .cons (by simp [isShown, numeric]) (by decide)
  | extended numeric =>
    have base : Shown (recovered text) := by
      unfold recovered
      split
      · exact shown_untouched
      · exact before
    exact base.append (.cons (by simp [isShown, numeric]) (by decide))
  | shortened => exact before.dropLast

/-- Only a parenthesis can leave no operand at all. -/
theorem Edited.ne_nil {text edited : Text} (h : Edited text edited) (typed : text ≠ []) :
    edited ≠ [] := by
  cases h with
  | kept => exact typed
  | reset => exact untouched_ne_nil
  | failed => exact failure_ne_nil
  | computed value => exact displayText_ne_nil value
  | begun | extended => simp
  | shortened usable filled => exact filled

end Calculator

end PocketCalc
