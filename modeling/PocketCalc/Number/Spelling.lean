import PocketCalc.Number.Shortest

/-!
# Number texts

A number is written as the positional layout of its shortest decimal. What the digits leave open,
the word for infinity and the sign of zero, is a spelling. `display` is the spelling of the
operand display and `plain` the one inside messages.
-/
namespace PocketCalc

structure Spelling where
  infinity : Text
  signsZero : Bool
  deriving DecidableEq, Repr

namespace Spelling

open Binary64 (parts)

def display : Spelling := ⟨"Infinity".toList, false⟩

def plain : Spelling := ⟨"inf".toList, true⟩

def sign (negative : Bool) : Text :=
  if negative then ['-'] else []

def write (spelling : Spelling) (value : Float) : Text :=
  match parts value with
  | .notANumber => "NaN".toList
  | .infinite negative => sign negative ++ spelling.infinity
  | .finite negative 0 => sign (negative && spelling.signsZero) ++ ['0']
  | .finite negative word => sign negative ++ (Decimal.shortest word).layout

end Spelling

/-- The text of a number in the operand display. -/
def displayText (value : Float) : Text :=
  Spelling.display.write value

end PocketCalc
