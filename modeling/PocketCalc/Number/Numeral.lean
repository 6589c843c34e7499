import PocketCalc.Number.Decimal

/-!
# Numerals

A numeral is a run of digits with at most one point in it, which may be its first or last
character. `span` takes the longest numeral from the head of a text and never makes the text
longer.
-/
namespace PocketCalc

structure Numeral where
  whole : Text
  fraction : Text
  deriving DecidableEq, Repr

namespace Numeral

def span (text : Text) : Numeral × Text :=
  match text.dropWhile Char.isDigit with
  | '.' :: rest =>
    (⟨text.takeWhile Char.isDigit, rest.takeWhile Char.isDigit⟩, rest.dropWhile Char.isDigit)
  | rest => (⟨text.takeWhile Char.isDigit, []⟩, rest)

def isEmpty (numeral : Numeral) : Bool :=
  numeral.whole.isEmpty && numeral.fraction.isEmpty

def decimal (numeral : Numeral) : Decimal :=
  ⟨Nat.ofDigitChars 10 (numeral.whole ++ numeral.fraction) 0, -numeral.fraction.length⟩

theorem length_dropWhile_digits (text : Text) :
    (text.dropWhile Char.isDigit).length ≤ text.length :=
  (List.dropWhile_sublist _).length_le

theorem length_span_le (text : Text) : (span text).2.length ≤ text.length := by
  have whole := length_dropWhile_digits text
  unfold span
  split
  next rest shape =>
    have := length_dropWhile_digits rest
    rw [shape, List.length_cons] at whole
    dsimp only
    omega
  · exact whole

theorem length_span_cons_le {character : Char} {rest : Text}
    (h : (character.isDigit || character == '.') = true) :
    (span (character :: rest)).2.length ≤ rest.length := by
  by_cases digit : character.isDigit = true
  · have same : (span (character :: rest)).2 = (span rest).2 := by
      unfold span
      rw [List.dropWhile_cons_of_pos digit]
      split <;> rfl
    exact same ▸ length_span_le rest
  · have point : character = '.' := by simpa [digit] using h
    subst point
    exact length_dropWhile_digits rest

end Numeral
end PocketCalc
