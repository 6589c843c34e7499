import PocketCalc.Function.Scientific
import PocketCalc.Number.Reading

/-!
# Operand texts

The operand of the display is read as a number before a function is applied to it. A displayed
number is always an operand, and so is every other text that reads as a number.
-/
namespace PocketCalc

def readOperand (text : Text) : Except OperandError Float :=
  match Number.read? text with
  | some value => .ok value
  | none => .error (.notANumber text)

end PocketCalc
