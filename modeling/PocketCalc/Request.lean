import PocketCalc.Session

/-!
# Requests

The program evaluates an expression, presses keys, or holds a session over the standard input. What
it is asked for follows from its arguments, by whatever reading of a command line they have been
handed over. Such a reading may also stop, at a fault of usage or for the version.
-/
namespace PocketCalc

/-- What a command line hands over. -/
structure Arguments where
  degrees : Bool
  inverse : Bool
  expression : Option Text
  keys : List Text
  deriving DecidableEq, Repr

inductive Request where
  | usage
  | version
  | evaluate (expression : Text)
  | press (calculator : Calculator) (keys : Text)
  | converse (calculator : Calculator)
  deriving DecidableEq, Repr

namespace Request

inductive Stop where
  | usage | version
  deriving DecidableEq, Repr

def joinWords : List Text → Text
  | [] => []
  | [word] => word
  | word :: rest => word ++ ' ' :: joinWords rest

end Request

namespace Arguments

def calculator (arguments : Arguments) : Calculator :=
  Calculator.start (if arguments.degrees then .degrees else .radians) arguments.inverse

/-- An expression is evaluated by itself. Without keys there is a session. -/
def request (arguments : Arguments) : Request :=
  match arguments.expression with
  | some expression => .evaluate expression
  | none =>
    match arguments.keys with
    | [] => .converse arguments.calculator
    | keys => .press arguments.calculator (Request.joinWords keys)

end Arguments

inductive Outcome where
  | usage
  | finished (succeeded : Bool) (output diagnostics : Text)
  deriving DecidableEq, Repr

namespace Outcome

def status : Outcome → Nat
  | .finished true _ _ => 0
  | _ => 1

def success (output : Text) : Outcome :=
  .finished true output []

def failure (output message : Text) : Outcome :=
  .finished false output (report message)

def ofEnding (ending : Session.Ending) : Outcome :=
  match ending.error with
  | none => success ending.output
  | some error => failure ending.output error.message

end Outcome

namespace Request

def ofReading : Except Stop Arguments → Request
  | .ok arguments => arguments.request
  | .error .usage => .usage
  | .error .version => .version

def versionText : Text :=
  "scicalc 0.1.0\n".toList

/-- Carries out a request; only a session reads the standard input. -/
def outcome (input : List UInt8) : Request → Outcome
  | .usage => .usage
  | .version => .success versionText
  | .evaluate expression =>
    match PocketCalc.evaluate expression with
    | .ok value => .success (displayText value ++ "\n".toList)
    | .error error => .failure [] error.evaluationMessage
  | .press calculator keys =>
    match Key.ofLine keys with
    | .ok pressed => .success (calculator.pressAll pressed).render
    | .error error => .failure [] error.message
  | .converse calculator => .ofEnding (Session.run calculator input)

/-- Carries out what the words of a command line ask for, as they are read. -/
def runCommandBy (read : List Text → Except Stop Arguments) (words : List Text)
    (input : List UInt8) : Outcome :=
  (ofReading (read words)).outcome input

end Request
end PocketCalc
