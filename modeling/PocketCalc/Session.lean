import PocketCalc.Calculator
import PocketCalc.Key.Line

/-!
# Sessions

A session reads bytes as lines of keys for one calculator and writes the display after each. A
line with an unknown key is reported and presses nothing, a blank line is passed over, and the
first line that is not UTF-8 ends the session.
-/
namespace PocketCalc

namespace Calculator

def render (calculator : Calculator) : Text :=
  (if calculator.pending = [] then [] else calculator.pending ++ "\n".toList) ++
    calculator.current ++ "\n".toList

def prompt (calculator : Calculator) : Text :=
  "[".toList ++ calculator.angleMode.text ++
    (if calculator.inverse then " inv".toList else []) ++ "]> ".toList

end Calculator

def report (message : Text) : Text :=
  "scicalc: ".toList ++ message ++ "\n".toList

namespace Session

def lineFeed : UInt8 := 0x0A

def carriageReturn : UInt8 := 0x0D

/-- The lines of an input. A line ends at a line feed or a carriage return and a line feed,
neither of which belongs to it; what follows the last of them is a line if it is not empty. -/
def lines : List UInt8 → List (List UInt8)
  | [] => []
  | byte :: rest =>
    if byte = lineFeed then [] :: lines rest
    else if byte = carriageReturn ∧ rest.head? = some lineFeed then lines rest
    else if rest.isEmpty then [[byte]]
    else (lines rest).modifyHead (byte :: ·)

def decode? (line : List UInt8) : Option Text :=
  (String.fromUTF8? line.toByteArray).map String.toList

inductive InputError where
  | notText
  deriving DecidableEq, Repr

def InputError.message : InputError → Text
  | .notText => "stream did not contain valid UTF-8".toList

/-- The calculator after a line, and what is written for the line. -/
def answer (calculator : Calculator) (line : Text) : Calculator × Text :=
  if Text.allBlank line then (calculator, [])
  else
    match Key.ofLine line with
    | .ok keys =>
      let calculator := calculator.pressAll keys
      (calculator, calculator.render)
    | .error error => (calculator, report error.message)

structure Ending where
  calculator : Calculator
  output : Text
  error : Option InputError
  deriving DecidableEq, Repr

def runLines (calculator : Calculator) : List (List UInt8) → Ending
  | [] => ⟨calculator, [], none⟩
  | line :: rest =>
    match decode? line with
    | none => ⟨calculator, [], some .notText⟩
    | some text =>
      let (calculator, written) := answer calculator text
      let ending := runLines calculator rest
      { ending with output := written ++ ending.output }

def run (calculator : Calculator) (input : List UInt8) : Ending :=
  runLines calculator (lines input)

end Session
end PocketCalc
