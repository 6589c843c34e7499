import PocketCalc.Proofs.DisplayShape
import PocketCalc.Proofs.Entry

/-!
# Deletions

A deletion takes back the digit or the point that was typed last, whatever operand it was typed
into: a digit that took the place of an untouched zero leaves that zero. So as many deletions as
digits restore the state. As many deletions as the operand has characters leave it untouched.
-/
namespace PocketCalc

namespace Calculator

variable {calculator : Calculator}

/-- Digits and points typed one after another, none of them a point that the operand has already. -/
inductive Takes : Calculator → Text → Prop
  | nothing {calculator : Calculator} : Takes calculator []
  | digit {calculator : Calculator} {character : Char} {others : Text}
      (numeric : isNumeric character = true) (single : character = '.' → '.' ∉ calculator.current)
      (later : Takes (calculator.press (.digit character)) others) :
      Takes calculator (character :: others)

/-- An operand that digits can be typed into and deleted from again. -/
structure Extendable (text : Text) : Prop where
  usable : text ≠ failure
  typed : text ≠ []
  unsigned : text ≠ ['-']

theorem Extendable.enter {text : Text} (h : Extendable text) {character : Char}
    (numeric : isNumeric character = true) : Extendable (enter text character) := by
  constructor
  · exact enter_ne_failure numeric h.usable
  · exact enter_ne h.typed (by simp)
  · apply enter_ne h.unsigned
    intro same
    have sign : '-' = character := Option.some.inj same
    subst sign
    cases numeric

/-- A deletion takes back one digit. -/
theorem press_digit_delete (h : Extendable calculator.current) {character : Char}
    (numeric : isNumeric character = true) (single : character = '.' → '.' ∉ calculator.current) :
    (calculator.press (.digit character)).press .delete = calculator := by
  have usable := (h.enter numeric).usable
  have taken : ¬ (character = '.' ∧ '.' ∈ calculator.current) := fun both => single both.1 both.2
  rw [press_digit numeric h.usable, press, delete]
  unfold enter at *
  rw [if_neg taken] at *
  split
  next fresh =>
    rw [if_pos (by simp), ← fresh.1]
  next extended =>
    rw [if_neg extended] at usable
    simp [usable, h.typed, h.unsigned]

/-- Deletions take back as many digits, the last one first. -/
theorem pressAll_digits_delete {typed : Text} (taken : Takes calculator typed)
    (h : Extendable calculator.current) :
    calculator.pressAll (typed.map .digit ++ List.replicate typed.length .delete) =
      calculator := by
  induction taken with
  | nothing => rfl
  | @digit calculator character others numeric single later ih =>
    have extended : Extendable (calculator.press (.digit character)).current := by
      rw [press_digit numeric h.usable]
      exact h.enter numeric
    rw [List.map_cons, List.length_cons, List.replicate_succ', ← List.append_assoc,
      pressAll_append, List.cons_append]
    show ((calculator.press (.digit character)).pressAll _).press .delete = calculator
    rw [ih extended, press_digit_delete h numeric single]

theorem pressAll_delete_untouched (calculator : Calculator) (count : Nat) :
    { calculator with current := untouched }.pressAll (List.replicate count .delete) =
      { calculator with current := untouched } := by
  induction count with
  | zero => rfl
  | succ count ih => exact ih

/-- Each deletion shortens the operand by a character, until it is untouched. -/
theorem pressAll_delete {count : Nat} (enough : max 1 calculator.current.length ≤ count) :
    calculator.pressAll (List.replicate count .delete) =
      { calculator with current := untouched } := by
  induction count generalizing calculator with
  | zero => omega
  | succ count ih =>
    show (calculator.press .delete).pressAll (List.replicate count .delete) = _
    rw [press, delete]
    split
    · exact pressAll_delete_untouched calculator count
    next typed =>
      simp only [not_or] at typed
      have some := List.length_pos_iff.mpr typed.2.1
      rw [List.length_dropLast] at some
      apply ih
      simp only [List.length_dropLast]
      omega

/-- In every state that can be reached, deletions take back digits and points that were typed into
an operand. Once they are as many as its characters the operand is untouched, and stays so. -/
theorem pressAll_deletions (angleMode : AngleMode) (inverse : Bool) (keys : List Key) :
    let calculator := (start angleMode inverse).pressAll keys
    (calculator.current ≠ [] → calculator.current ≠ failure →
        ∀ typed, Takes calculator typed →
          calculator.pressAll (typed.map .digit ++ List.replicate typed.length .delete) =
            calculator) ∧
      ∀ count, max 1 calculator.current.length ≤ count →
        let deleted := calculator.pressAll (List.replicate count .delete)
        deleted = { calculator with current := untouched } ∧
          ∀ further, deleted.pressAll (List.replicate further .delete) = deleted := by
  intro calculator
  constructor
  · intro typed usable characters taken
    have shape : Shaped calculator := (Shaped.start angleMode inverse).pressAll keys
    have operand : OperandText calculator.current :=
      (shape.current.resolve_left usable).resolve_left typed
    exact pressAll_digits_delete taken ⟨usable, typed, operand.form.ne_minus⟩
  · intro count enough deleted
    have reset : deleted = { calculator with current := untouched } := pressAll_delete enough
    refine ⟨reset, ?_⟩
    intro further
    rw [reset]
    exact pressAll_delete_untouched calculator further

/-- A seven takes the place of the zero, and the zero is there again at the end. Three deletions
leave nothing of `7.5`, and two more change nothing. -/
theorem pressAll_deletions_zero :
    let keys : List Key := [.digit '2', .operator '+']
    let calculator := (start .radians false).pressAll keys
    let filled := (start .radians false).pressAll (keys ++ "7.5".toList.map .digit)
    calculator.pressAll ("07.5".toList.map .digit ++ List.replicate 4 .delete) = calculator ∧
      filled.current = "7.5".toList ∧
      filled.pressAll (List.replicate 3 .delete) = calculator ∧
      (filled.pressAll (List.replicate 3 .delete)).pressAll (List.replicate 2 .delete) =
        calculator := by
  intro keys calculator filled
  have undone := (pressAll_deletions .radians false keys).1
  have reset := (pressAll_deletions .radians false (keys ++ "7.5".toList.map .digit)).2
  have taken : Takes calculator "07.5".toList :=
    .digit rfl (by decide) (.digit rfl (by decide) (.digit rfl (by decide)
      (.digit rfl (by decide) .nothing)))
  obtain ⟨emptied, kept⟩ := reset 3 (by decide)
  have untyped : { filled with current := untouched } = calculator := rfl
  refine ⟨undone (by decide) (by decide) _ taken, rfl, emptied.trans untyped, ?_⟩
  exact (kept 2).trans (emptied.trans untyped)

end Calculator
end PocketCalc
