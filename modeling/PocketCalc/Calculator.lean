import PocketCalc.Expression.Evaluation
import PocketCalc.Key
import PocketCalc.Operand

/-!
# The calculator

The display holds the expression typed so far in two texts: what is committed, and the operand
under edit. A `0` stands for an operand that has not been typed, and `Error` for one that could
not be computed; the next edit starts afresh from either. Every operation ignores a character that
it does not know.
-/
namespace PocketCalc

structure Calculator where
  pending : Text
  current : Text
  angleMode : AngleMode
  inverse : Bool
  deriving DecidableEq, Repr

namespace Calculator

def untouched : Text := "0".toList

def failure : Text := "Error".toList

def start (angleMode : AngleMode) (inverse : Bool) : Calculator :=
  ⟨[], untouched, angleMode, inverse⟩

def recover (calculator : Calculator) : Calculator :=
  if calculator.current = failure then { calculator with current := untouched } else calculator

/-- The operand as it enters the expression. After a closing parenthesis a `0` is no operand. -/
def operand (calculator : Calculator) : Text :=
  if calculator.current = untouched ∧ calculator.pending.getLast? = some ')' then []
  else calculator.current

def commit (calculator : Calculator) : Calculator :=
  { calculator with
    pending := calculator.pending ++ calculator.operand
    current := untouched }

def push (calculator : Calculator) (character : Char) : Calculator :=
  { calculator with pending := calculator.pending ++ [character] }

def insertDigit (calculator : Calculator) (character : Char) : Calculator :=
  if character = '.' ∧ '.' ∈ calculator.current then calculator
  else if calculator.current = untouched ∧ character ≠ '.' then
    { calculator with current := [character] }
  else { calculator with current := calculator.current ++ [character] }

def typeDigit (calculator : Calculator) (character : Char) : Calculator :=
  if isNumeric character then calculator.recover.insertDigit character else calculator

def delete (calculator : Calculator) : Calculator :=
  let shorter := calculator.current.dropLast
  if calculator.current = failure ∨ shorter = [] ∨ shorter = ['-'] then
    { calculator with current := untouched }
  else { calculator with current := shorter }

def insertParenthesis (calculator : Calculator) (character : Char) : Calculator :=
  if calculator.current = untouched then
    if calculator.pending = [] then { calculator with pending := [character], current := [] }
    else calculator.push character
  else calculator.commit.push character

def typeParenthesis (calculator : Calculator) (character : Char) : Calculator :=
  if character = '(' ∨ character = ')' then calculator.recover.insertParenthesis character
  else calculator

def endsInOperator (text : Text) : Bool :=
  text.getLast?.any (· ∈ operators)

/-- Commits the operand and the operator after it. With no operand typed since the last operator,
the new operator takes its place. -/
def insertOperator (calculator : Calculator) (character : Char) : Calculator :=
  if calculator.current = [] ∧ calculator.pending = [] then calculator
  else if calculator.current ≠ untouched ∨ calculator.pending.getLast? = some ')' then
    calculator.commit.push character
  else if endsInOperator calculator.pending then
    { calculator with pending := calculator.pending.dropLast ++ [character] }
  else calculator.push character

def typeOperator (calculator : Calculator) (character : Char) : Calculator :=
  if character ∈ operators then calculator.recover.insertOperator character else calculator

/-- A constant replaces only an operand that has not been touched. -/
def typeConstant (calculator : Calculator) (constant : Constant) : Calculator :=
  let calculator := calculator.recover
  if calculator.current = untouched then
    { calculator with current := displayText constant.value }
  else calculator

def applyFunction (calculator : Calculator) (function : Scientific) : Calculator :=
  match readOperand calculator.current with
  | .error _ => calculator
  | .ok value =>
    match function.apply calculator.angleMode calculator.inverse value with
    | .ok result => { calculator with current := displayText result }
    | .error _ => { calculator with current := failure }

def clear (calculator : Calculator) : Calculator :=
  { calculator with pending := [], current := untouched }

def resultText (expression : Text) : Text :=
  match PocketCalc.evaluate expression with
  | .ok value => displayText value
  | .error _ => failure

def evaluate (calculator : Calculator) : Calculator :=
  { calculator with
    pending := []
    current := resultText (calculator.pending ++ calculator.operand) }

def toggleAngleMode (calculator : Calculator) : Calculator :=
  { calculator with angleMode := calculator.angleMode.toggled }

def toggleInverse (calculator : Calculator) : Calculator :=
  { calculator with inverse := !calculator.inverse }

def press (calculator : Calculator) : Key → Calculator
  | .digit character => calculator.typeDigit character
  | .operator character => calculator.typeOperator character
  | .parenthesis character => calculator.typeParenthesis character
  | .constant constant => calculator.typeConstant constant
  | .function function => calculator.applyFunction function
  | .delete => calculator.delete
  | .clear => calculator.clear
  | .evaluate => calculator.evaluate
  | .toggleAngleMode => calculator.toggleAngleMode
  | .toggleInverse => calculator.toggleInverse

def pressAll (calculator : Calculator) (keys : List Key) : Calculator :=
  keys.foldl press calculator

theorem pressAll_nil (calculator : Calculator) : calculator.pressAll [] = calculator := rfl

theorem pressAll_append (calculator : Calculator) (first second : List Key) :
    calculator.pressAll (first ++ second) = (calculator.pressAll first).pressAll second :=
  List.foldl_append

end Calculator
end PocketCalc
