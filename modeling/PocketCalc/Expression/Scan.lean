import PocketCalc.Expression.Error
import PocketCalc.Expression.Glyph
import PocketCalc.Expression.Token
import PocketCalc.Number.Numeral
import PocketCalc.Text.Letter

/-!
# Tokens of a text

`lexeme` reads one token or one blank at the head of a text and leaves a text that is no longer
than what follows its first character; `scan` repeats it and stops at the first fault. `tokenize`
reads a text that may hold display glyphs.
-/
namespace PocketCalc

/-- The numbers that are written as words, so that a displayed result can be read again. -/
def wordValue? (word : Text) : Option Float :=
  if word = "Infinity".toList then some Binary64.infinity
  else if word = "NaN".toList then some Binary64.notANumber
  else none

/-- Whether a stray character runs on into this one. -/
def continuesStray (character : Char) : Bool :=
  !(isBlank character || (Token.ofOperator? character).isSome || character.isDigit)

def lexeme (character : Char) (rest : Text) : Except ExpressionError (Option Token × Text) :=
  if isLetter character then
    let word := character :: rest.takeWhile isLetter
    match wordValue? word with
    | some value => .ok (some (.number value), rest.dropWhile isLetter)
    | none => .error (.unrecognizedToken word)
  else if character.isDigit || character == '.' then
    let (numeral, later) := Numeral.span (character :: rest)
    if numeral.isEmpty then .error (.invalidNumber ['.'])
    else .ok (some (.number numeral.decimal.toFloat), later)
  else
    match Token.ofOperator? character with
    | some .times =>
      if rest.head? = some '*' then .ok (some .power, rest.tail) else .ok (some .times, rest)
    | some token => .ok (some token, rest)
    | none =>
      if isBlank character then .ok (none, rest)
      else .error (.unrecognizedToken (character :: rest.takeWhile continuesStray))

theorem length_lexeme_le {character : Char} {rest later : Text} {token : Option Token}
    (h : lexeme character rest = .ok (token, later)) : later.length ≤ rest.length := by
  unfold lexeme at h
  dsimp only at h
  split at h
  · split at h
    · cases h
      exact (List.dropWhile_sublist _).length_le
    · contradiction
  · split at h
    next numeric =>
      split at h
      · contradiction
      · cases h
        exact Numeral.length_span_cons_le numeric
    · split at h
      · split at h
        · cases h
          simp
        · cases h
          exact Nat.le_refl _
      · cases h
        exact Nat.le_refl _
      · split at h
        · cases h
          exact Nat.le_refl _
        · contradiction

def scan (text : Text) : Except ExpressionError (List Token) :=
  match text with
  | [] => .ok []
  | character :: rest =>
    match found : lexeme character rest with
    | .error error => .error error
    | .ok (token, later) =>
      have := length_lexeme_le found
      (scan later).map (token.toList ++ ·)
termination_by text.length
decreasing_by
  simp only [List.length_cons]
  omega

def tokenize (text : Text) : Except ExpressionError (List Token) :=
  scan (normalize text)

end PocketCalc
