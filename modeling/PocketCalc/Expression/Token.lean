import PocketCalc.Number.Spelling

/-!
# Tokens

The tokens of an arithmetic expression, with the text by which a message names each: its kind, or
for a number its plain spelling between quotes.
-/
namespace PocketCalc

inductive Token where
  | plus | minus | times | over | power | opening | closing
  | number (value : Float)
  deriving DecidableEq, Repr

namespace Token

def text : Token → Text
  | .plus => "Plus".toList
  | .minus => "Minus".toList
  | .times => "Multiply".toList
  | .over => "Divide".toList
  | .power => "Exponent".toList
  | .opening => "OpenParen".toList
  | .closing => "CloseParen".toList
  | .number value => "'".toList ++ Spelling.plain.write value ++ "'".toList

/-- The token of a one-character operator or parenthesis. -/
def ofOperator? : Char → Option Token
  | '+' => some .plus
  | '-' => some .minus
  | '*' => some .times
  | '/' => some .over
  | '^' => some .power
  | '(' => some .opening
  | ')' => some .closing
  | _ => none

/-- Where an operator is due, these tokens are a fault and any other ends the operand. -/
def startsOperand : Token → Bool
  | .number _ | .opening => true
  | _ => false

end Token
end PocketCalc
