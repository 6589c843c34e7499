import PocketCalc.Number.Constant
import PocketCalc.Text.Blank

/-!
# Angle modes

The unit in which the trigonometric functions take their angles and their inverses give them.
-/
namespace PocketCalc

inductive AngleMode where
  | radians | degrees
  deriving DecidableEq, Repr

namespace AngleMode

def toggled : AngleMode → AngleMode
  | .radians => .degrees
  | .degrees => .radians

def text : AngleMode → Text
  | .radians => "Rad".toList
  | .degrees => "Deg".toList

def toRadians (mode : AngleMode) (angle : Float) : Float :=
  match mode with
  | .radians => angle
  | .degrees => angle * (Constant.pi.value / 180)

def ofRadians (mode : AngleMode) (angle : Float) : Float :=
  match mode with
  | .radians => angle
  | .degrees => angle * (180 / Constant.pi.value)

end AngleMode
end PocketCalc
