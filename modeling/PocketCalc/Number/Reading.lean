import PocketCalc.Number.Numeral

/-!
# Reading numbers

`read?` reads a whole text as a number: an optional sign, then a word for infinity or for no
number in any case, or a numeral with an optional power of ten. Nothing else may stand in the
text.
-/
namespace PocketCalc.Number

def natural? (text : Text) : Option Nat :=
  if !text.isEmpty && text.all Char.isDigit then some (Nat.ofDigitChars 10 text 0) else none

/-- Whether a text begins with a minus, and the text after its sign. -/
def splitSign : Text → Bool × Text
  | '-' :: rest => (true, rest)
  | '+' :: rest => (false, rest)
  | text => (false, text)

def powerOfTen? : Text → Option Int
  | [] => some 0
  | mark :: text =>
    if mark.toLower = 'e' then
      let (negative, digits) := splitSign text
      (natural? digits).map fun size => if negative then -size else size
    else none

def scaled? (text : Text) : Option Decimal :=
  let (numeral, rest) := Numeral.span text
  if numeral.isEmpty then none
  else (powerOfTen? rest).map fun power =>
    { numeral.decimal with exponent := numeral.decimal.exponent + power }

def unsigned? (text : Text) : Option Float :=
  let lower := text.map Char.toLower
  if lower = "inf".toList ∨ lower = "infinity".toList then some Binary64.infinity
  else if lower = "nan".toList then some Binary64.notANumber
  else (scaled? text).map Decimal.toFloat

def read? (text : Text) : Option Float :=
  let (negative, body) := splitSign text
  (unsigned? body).map fun value => if negative then -value else value

end PocketCalc.Number
