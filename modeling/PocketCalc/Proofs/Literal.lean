import PocketCalc.Proofs.Mark

/-!
# Number literals

A literal is what the digit keys can spell: digits with at most one point among them. However it is
spelled it is one token, and the value of the token depends on its digits and the place of its
point alone.
-/
namespace PocketCalc

theorem numeric_apart_from_letters :
    rangesApart [(0x2E, 0x2E), (0x30, 0x39)] ([(0x41, 0x5A), (0x61, 0x7A)] ++ letterRanges) =
      true := by
  decide +kernel

theorem not_isLetter_of_isNumeric {character : Char} (h : isNumeric character = true) :
    isLetter character = false := by
  have inside : inRanges [(0x2E, 0x2E), (0x30, 0x39)] character.toNat = true := by
    rcases Bool.or_eq_true_iff.mp h with digit | point
    · have bounds : 48 ≤ character.toNat ∧ character.toNat ≤ 57 := Char.isDigit_iff_toNat.mp digit
      simp [inRanges, bounds]
    · rw [beq_iff_eq.mp point]
      decide
  rw [Bool.eq_false_iff]
  intro letter
  have outside := not_inRanges_of_apart numeric_apart_from_letters inside
  rw [inRanges_of_isLetter letter] at outside
  cases outside

theorem not_isNumeric_of_isLetter {character : Char} (h : isLetter character = true) :
    isNumeric character = false := by
  rw [Bool.eq_false_iff]
  intro numeric
  rw [not_isLetter_of_isNumeric numeric] at h
  cases h

/-- Nothing that is displayed is a glyph. -/
theorem Shown.normalize {text : Text} (h : Shown text) : normalize text = text := by
  rw [normalize_eq_glyphPass]
  induction text with
  | nil => rfl
  | cons character rest ih =>
    obtain ⟨first, others⟩ := List.forall_mem_cons.mp h
    have absent (mark : Char) (hidden : isShown mark = false) : character ≠ mark := by
      rintro rfl
      rw [hidden] at first
      cases first
    rw [glyphPass_cons fun glyph => absent 'x' (by decide) glyph.1, writtenSingle,
      if_neg (absent '×' (by decide)), if_neg (absent '÷' (by decide)),
      ih others]

structure Literal where
  whole : Text
  fraction : Option Text
  digits : (whole ++ fraction.getD []).all Char.isDigit = true
  spelled : whole ++ fraction.getD [] ≠ []

namespace Literal

def text (literal : Literal) : Text :=
  match literal.fraction with
  | none => literal.whole
  | some fraction => literal.whole ++ '.' :: fraction

def numeral (literal : Literal) : Numeral :=
  ⟨literal.whole, literal.fraction.getD []⟩

def value (literal : Literal) : Float :=
  literal.numeral.decimal.toFloat

/-- Whether a literal is spelled with zeros only and without a point. -/
def isBareZero (literal : Literal) : Bool :=
  literal.fraction.isNone && literal.whole.all (· == '0')

theorem whole_digits (literal : Literal) : ∀ character ∈ literal.whole, character.isDigit = true :=
  fun character member =>
    List.all_eq_true.mp literal.digits character (List.mem_append_left _ member)

theorem fraction_digits {literal : Literal} {fraction : Text}
    (h : literal.fraction = some fraction) :
    ∀ character ∈ fraction, character.isDigit = true := by
  intro character member
  refine List.all_eq_true.mp literal.digits character (List.mem_append_right _ ?_)
  rw [h]
  exact member

theorem isNumeric_of_mem_text (literal : Literal) :
    ∀ character ∈ literal.text, isNumeric character = true := by
  intro character member
  unfold text at member
  split at member
  · simp [isNumeric, literal.whole_digits character member]
  next fraction h =>
    rcases List.mem_append.mp member with inWhole | inRest
    · simp [isNumeric, literal.whole_digits character inWhole]
    · rcases List.mem_cons.mp inRest with rfl | inFraction
      · rfl
      · simp [isNumeric, fraction_digits h character inFraction]

theorem text_ne_nil (literal : Literal) : literal.text ≠ [] := by
  have spelled := literal.spelled
  unfold text
  split
  next h => simpa [h] using spelled
  · exact List.append_ne_nil_of_right_ne_nil _ (List.cons_ne_nil _ _)

theorem shown_text (literal : Literal) : Shown literal.text := by
  intro character member
  simp [isShown, literal.isNumeric_of_mem_text character member]

theorem isEmpty_numeral (literal : Literal) : literal.numeral.isEmpty = false := by
  rw [Bool.eq_false_iff]
  intro empty
  apply literal.spelled
  simpa [Numeral.isEmpty, numeral] using empty

/-- Whether a digit or a point would go on with a literal. -/
def takes (literal : Literal) (next : Char) : Bool :=
  next.isDigit || next == '.' && literal.fraction.isNone

theorem not_takes_of_not_isNumeric (literal : Literal) {next : Char}
    (h : isNumeric next = false) : literal.takes next = false := by
  have apart : next.isDigit = false ∧ next ≠ '.' := by simpa [isNumeric] using h
  simp [takes, apart]

/-- A literal is the whole numeral before a text that does not go on with it. -/
theorem span_append (literal : Literal) {rest : Text}
    (stop : ∀ next ∈ rest.head?, literal.takes next = false) :
    Numeral.span (literal.text ++ rest) = (literal.numeral, rest) := by
  have digits : ∀ next ∈ rest.head?, Char.isDigit next = false := by
    intro next member
    have quiet := stop next member
    unfold takes at quiet
    rw [Bool.or_eq_false_iff] at quiet
    exact quiet.1
  have none : rest.takeWhile Char.isDigit = [] := takeWhile_append_stop digits []
  have all : rest.dropWhile Char.isDigit = rest := dropWhile_append_stop digits []
  have whole (more : Text) : (literal.whole ++ more).takeWhile Char.isDigit =
      literal.whole ++ more.takeWhile Char.isDigit :=
    List.takeWhile_append_of_pos literal.whole_digits
  have after (more : Text) : (literal.whole ++ more).dropWhile Char.isDigit =
      more.dropWhile Char.isDigit :=
    List.dropWhile_append_of_pos literal.whole_digits
  unfold text numeral
  split
  next h =>
    have apart : rest.head? ≠ some '.' := by
      intro point
      have quiet := stop '.' point
      simp [takes, h] at quiet
    unfold Numeral.span
    rw [whole, after, none, all, h]
    cases rest with
    | nil => simp
    | cons first others =>
      split
      next same =>
        cases same
        exact absurd rfl apart
      · simp
  next fraction h =>
    have inside := fraction_digits h
    have kept : (fraction ++ rest).takeWhile Char.isDigit = fraction := by
      rw [List.takeWhile_append_of_pos inside, none, List.append_nil]
    have ended : (fraction ++ rest).dropWhile Char.isDigit = rest := by
      rw [List.dropWhile_append_of_pos inside, all]
    have point : Char.isDigit '.' = false := by decide
    unfold Numeral.span
    rw [List.append_assoc, whole, after, h]
    simp [point, kept, ended]

theorem span_text (literal : Literal) : Numeral.span literal.text = (literal.numeral, []) := by
  have alone := @span_append literal [] (by simp)
  rwa [List.append_nil] at alone

theorem lexeme_append (literal : Literal) {rest others : Text} {character : Char}
    (stop : ∀ next ∈ rest.head?, literal.takes next = false)
    (split : character :: others = literal.text ++ rest) :
    lexeme character others = .ok (some (.number literal.value), rest) := by
  have first : (character.isDigit || character == '.') = true := by
    apply literal.isNumeric_of_mem_text
    cases spelled : literal.text with
    | nil => exact absurd spelled literal.text_ne_nil
    | cons head tail =>
      rw [spelled] at split
      cases split
      exact List.mem_cons_self
  have quiet := not_isLetter_of_isNumeric first
  have filled := literal.isEmpty_numeral
  unfold lexeme
  dsimp only
  rw [if_neg (by simp [quiet]), if_pos first, split, literal.span_append stop]
  simp [filled, value]

/-- A literal is one token before a text that does not go on with it. -/
theorem scan_append (literal : Literal) {rest : Text}
    (stop : ∀ next ∈ rest.head?, literal.takes next = false) :
    scan (literal.text ++ rest) = (scan rest).map (.number literal.value :: ·) := by
  cases split : literal.text ++ rest with
  | nil => exact absurd (List.append_eq_nil_iff.mp split).1 literal.text_ne_nil
  | cons character others =>
    rw [scan_cons, literal.lexeme_append stop split.symm]
    rfl

theorem scan_text (literal : Literal) : scan literal.text = .ok [.number literal.value] := by
  have alone := @scan_append literal [] (by simp)
  rw [List.append_nil] at alone
  rw [alone]
  simp [scan, Except.map]

theorem tokenize_text (literal : Literal) :
    tokenize literal.text = .ok [.number literal.value] := by
  rw [tokenize, literal.shown_text.normalize, scan_text]

end Literal
end PocketCalc
