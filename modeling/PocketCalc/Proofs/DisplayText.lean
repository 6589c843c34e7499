import PocketCalc.Calculator

/-!
# Characters of a displayed number

A displayed number is never empty. It is a word or a numeral after an optional sign, so that no
operator but that sign and no glyph stands in it.
-/
namespace PocketCalc

/-- The characters that numbers, their words and the failure are displayed with. -/
def isShown (character : Char) : Bool :=
  isNumeric character || character ∈ "-InfinityNaNError".toList

theorem isShown_of_isDigit {character : Char} (h : character.isDigit = true) :
    isShown character = true := by
  simp [isShown, isNumeric, h]

/-- No operator but the sign, no parenthesis and no part of a glyph is displayed. -/
theorem not_isShown_of_mark {character : Char}
    (h : character ∈ ['+', '*', '/', '^', '(', ')', '×', '÷', 'x', 'ʸ']) :
    isShown character = false := by
  have all : ['+', '*', '/', '^', '(', ')', '×', '÷', 'x', 'ʸ'].all (!isShown ·) = true := by
    decide
  simpa using List.all_eq_true.mp all character h

/-- A text of displayed characters only. -/
def Shown (text : Text) : Prop :=
  ∀ character ∈ text, isShown character = true

instance (text : Text) : Decidable (Shown text) :=
  List.decidableBAll _ text

theorem Shown.append {front back : Text} (first : Shown front) (second : Shown back) :
    Shown (front ++ back) := by
  intro character member
  rcases List.mem_append.mp member with inFront | inBack
  · exact first character inFront
  · exact second character inBack

theorem Shown.cons {character : Char} {text : Text} (first : isShown character = true)
    (others : Shown text) : Shown (character :: text) :=
  List.forall_mem_cons.mpr ⟨first, others⟩

theorem Shown.dropLast {text : Text} (h : Shown text) : Shown text.dropLast :=
  fun character member => h character ((List.dropLast_sublist text).subset member)

theorem Shown.of_digits {text : Text} (h : ∀ character ∈ text, character.isDigit = true) :
    Shown text :=
  fun character member => isShown_of_isDigit (h character member)

namespace Decimal

theorem isDigit_of_mem_trimZeros {text : Text} (h : ∀ character ∈ text, character.isDigit = true)
    {character : Char} (member : character ∈ trimZeros text) : character.isDigit = true := by
  have kept : character ∈ text.reverse :=
    (List.dropWhile_sublist _).subset (List.mem_reverse.mp member)
  exact h character (List.mem_reverse.mp kept)

/-- The numeral that a decimal is laid out as. -/
def laidOut (decimal : Decimal) : Numeral where
  whole := Nat.toDigits 10 (decimal.numerator / decimal.denominator)
  fraction := trimZeros (List.leftpad (-decimal.exponent).toNat '0'
    (Nat.toDigits 10 (decimal.numerator % decimal.denominator)))

theorem layout_eq (decimal : Decimal) :
    decimal.layout = if decimal.laidOut.fraction.isEmpty then decimal.laidOut.whole
      else decimal.laidOut.whole ++ '.' :: decimal.laidOut.fraction :=
  rfl

theorem laidOut_whole_ne_nil (decimal : Decimal) : decimal.laidOut.whole ≠ [] :=
  Nat.toDigits_ne_nil

theorem isDigit_of_mem_laidOut_whole (decimal : Decimal) :
    ∀ character ∈ decimal.laidOut.whole, character.isDigit = true :=
  fun _ member => Nat.isDigit_of_mem_toDigits (by decide) (by decide) member

theorem isDigit_of_mem_laidOut_fraction (decimal : Decimal) :
    ∀ character ∈ decimal.laidOut.fraction, character.isDigit = true := by
  intro character member
  refine isDigit_of_mem_trimZeros ?_ member
  intro digit padded
  rcases List.mem_append.mp padded with zero | inside
  · rw [List.eq_of_mem_replicate zero]
    rfl
  · exact Nat.isDigit_of_mem_toDigits (by decide) (by decide) inside

theorem layout_ne_nil (decimal : Decimal) : decimal.layout ≠ [] := by
  rw [layout_eq]
  split
  · exact decimal.laidOut_whole_ne_nil
  · exact List.append_ne_nil_of_left_ne_nil decimal.laidOut_whole_ne_nil _

theorem shown_layout (decimal : Decimal) : Shown decimal.layout := by
  have whole := Shown.of_digits decimal.isDigit_of_mem_laidOut_whole
  rw [layout_eq]
  split
  · exact whole
  · exact whole.append (.cons (by decide) (.of_digits decimal.isDigit_of_mem_laidOut_fraction))

end Decimal

theorem shown_sign (negative : Bool) : Shown (Spelling.sign negative) := by
  cases negative <;> decide

theorem displayText_ne_nil (value : Float) : displayText value ≠ [] := by
  unfold displayText Spelling.write
  split
  · decide
  · exact List.append_ne_nil_of_right_ne_nil _ (by decide)
  · exact List.append_ne_nil_of_right_ne_nil _ (by decide)
  · exact List.append_ne_nil_of_right_ne_nil _ (Decimal.layout_ne_nil _)

theorem shown_displayText (value : Float) : Shown (displayText value) := by
  unfold displayText Spelling.write
  split
  · decide
  · exact (shown_sign _).append (by decide)
  · exact (shown_sign _).append (by decide)
  · exact (shown_sign _).append (Decimal.shown_layout _)

end PocketCalc
