import PocketCalc.Function.Angle
import PocketCalc.Function.Factorial
import PocketCalc.Number.Spelling

/-!
# Scientific functions

The functions that a key applies to the current operand. Only the trigonometric ones look at the
angle mode and at the inverse flag; only the factorial can fail.
-/
namespace PocketCalc

inductive Trig where
  | sin | cos | tan
  deriving DecidableEq, Repr

def Trig.forward : Trig → Float → Float
  | .sin => Float.sin
  | .cos => Float.cos
  | .tan => Float.tan

def Trig.backward : Trig → Float → Float
  | .sin => Float.asin
  | .cos => Float.acos
  | .tan => Float.atan

inductive Scientific where
  | trig (ratio : Trig)
  | ln | log | factorial | percent | squareRoot
  deriving DecidableEq, Repr

inductive OperandError where
  | notANumber (text : Text)
  | factorialUndefined (argument : Float)
  deriving DecidableEq, Repr

def OperandError.message : OperandError → Text
  | .notANumber text => "not a number: ".toList ++ text
  | .factorialUndefined argument =>
    "factorial is undefined for ".toList ++ Spelling.plain.write argument

namespace Scientific

def apply (function : Scientific) (mode : AngleMode) (inverse : Bool) (value : Float) :
    Except OperandError Float :=
  match function with
  | .trig ratio =>
    if inverse then .ok (mode.ofRadians (ratio.backward value))
    else .ok (ratio.forward (mode.toRadians value))
  | .ln => .ok value.log
  | .log => .ok value.log10
  | .factorial =>
    match Factorial.factorial? value with
    | some product => .ok product
    | none => .error (.factorialUndefined value)
  | .percent => .ok (value / 100)
  | .squareRoot => .ok value.sqrt

def label (inverse : Bool) : Scientific → Text
  | .trig .sin => if inverse then "sin⁻¹".toList else "sin".toList
  | .trig .cos => if inverse then "cos⁻¹".toList else "cos".toList
  | .trig .tan => if inverse then "tan⁻¹".toList else "tan".toList
  | .ln => "ln".toList
  | .log => "log".toList
  | .factorial => "!".toList
  | .percent => "%".toList
  | .squareRoot => "√".toList

/-- Every name of a function with the function it names. -/
def names : List (Text × Scientific) :=
  [("sin".toList, .trig .sin), ("cos".toList, .trig .cos), ("tan".toList, .trig .tan),
   ("ln".toList, .ln), ("log".toList, .log), ("!".toList, .factorial), ("%".toList, .percent),
   ("√".toList, .squareRoot), ("sqrt".toList, .squareRoot)]

def ofName? (name : Text) : Option Scientific :=
  names.lookup name

end Scientific
end PocketCalc
