import PocketCalc.Text.Blank

/-!
# Malformed expressions

Arithmetic itself never fails, so every failure of an evaluation is a text or a token list that is
no expression. An error holds the texts that its message names.
-/
namespace PocketCalc

inductive ExpressionError where
  | invalidNumber (text : Text)
  | unrecognizedToken (text : Text)
  | unexpectedToken (found expected : Text)
  | unexpectedEnd
  | unmatchedParenthesis
  | trailingInput (found : Text)
  | tooDeep (levels : Nat)
  deriving DecidableEq, Repr

namespace ExpressionError

def message : ExpressionError → Text
  | .invalidNumber text => "invalid number: ".toList ++ text
  | .unrecognizedToken text => "unrecognized token: ".toList ++ text
  | .unexpectedToken found expected =>
    "expected ".toList ++ expected ++ " token, got ".toList ++ found ++ " instead".toList
  | .unexpectedEnd => "unexpected end of input".toList
  | .unmatchedParenthesis => "unmatched parenthesis".toList
  | .trailingInput found => "unconsumed input after expression: ".toList ++ found
  | .tooDeep levels =>
    "expression nested deeper than ".toList ++ Nat.toDigits 10 levels ++ " levels".toList

/-- The message of a failed evaluation. -/
def evaluationMessage (error : ExpressionError) : Text :=
  "malformed expression: ".toList ++ error.message

end ExpressionError
end PocketCalc
