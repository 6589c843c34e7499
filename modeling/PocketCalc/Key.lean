import PocketCalc.Function.Scientific

/-!
# Keys

The keys of the calculator and the names by which each is written. A digit key is a digit or the
point, and an operator key is one of the operator characters, two of which are display glyphs.
-/
namespace PocketCalc

def isNumeric (character : Char) : Bool :=
  character.isDigit || character == '.'

def operators : List Char := ['+', '-', '*', '/', '^', '×', '÷']

inductive Key where
  | digit (character : Char)
  | operator (character : Char)
  | parenthesis (character : Char)
  | constant (constant : Constant)
  | function (function : Scientific)
  | delete | clear | evaluate | toggleAngleMode | toggleInverse
  deriving DecidableEq, Repr

namespace Key

/-- The names that are words or single signs of their own, with their keys. -/
def names : List (Text × Key) :=
  [("(".toList, .parenthesis '('), (")".toList, .parenthesis ')'), ("xʸ".toList, .operator '^'),
   ("π".toList, .constant .pi), ("pi".toList, .constant .pi), ("e".toList, .constant .e),
   ("del".toList, .delete), ("⌫".toList, .delete),
   ("ac".toList, .clear), ("AC".toList, .clear), ("clear".toList, .clear),
   ("=".toList, .evaluate),
   ("deg".toList, .toggleAngleMode), ("rad".toList, .toggleAngleMode),
   ("Deg".toList, .toggleAngleMode), ("Rad".toList, .toggleAngleMode),
   ("inv".toList, .toggleInverse), ("Inv".toList, .toggleInverse)] ++
  Scientific.names.map fun entry => (entry.1, .function entry.2)

/-- A digit or an operator character is its own name. -/
def ofCharacter? (character : Char) : Option Key :=
  if isNumeric character then some (.digit character)
  else if character ∈ operators then some (.operator character)
  else none

def ofName? (name : Text) : Option Key :=
  match names.lookup name, name with
  | some key, _ => some key
  | none, [character] => ofCharacter? character
  | none, _ => none

end Key

structure UnknownKey where
  name : Text
  deriving DecidableEq, Repr

def UnknownKey.message (error : UnknownKey) : Text :=
  "unknown key: ".toList ++ error.name

end PocketCalc
