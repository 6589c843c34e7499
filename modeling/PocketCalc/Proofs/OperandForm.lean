import PocketCalc.Proofs.ReadBack

/-!
# Forms of the operand

An operand that is neither missing nor a failure is digits with at most one point, perhaps after a
minus, or the beginning of a word for a number with such digits behind it. It never begins with a
zero that another digit follows. Numbers are displayed in these forms, and every edit keeps them.
-/
namespace PocketCalc

open Calculator (untouched)

/-- Digits with at most one point among them. -/
def isFigures (text : Text) : Bool :=
  text.all isNumeric && decide (text.count '.' ≤ 1)

/-- The words that numbers are displayed as. -/
def displayedWords : List Text :=
  ["Infinity".toList, "-Infinity".toList, "NaN".toList]

inductive OperandForm : Text → Prop
  | figures (negative : Bool) {text : Text} (typed : text ≠ []) (figures : isFigures text = true) :
      OperandForm (Spelling.sign negative ++ text)
  | word {word front text : Text} (known : word ∈ displayedWords) (beginning : front <+: word)
      (typed : front ≠ []) (unsigned : front ≠ ['-']) (figures : isFigures text = true) :
      OperandForm (front ++ text)

/-- Whether a text begins with a zero that another digit follows. -/
def hasLeadingZero : Text → Bool
  | '0' :: digit :: _ => digit.isDigit
  | _ => false

/-- An operand that has been typed or computed. -/
structure OperandText (text : Text) : Prop where
  form : OperandForm text
  trimmed : hasLeadingZero text = false

theorem isFigures_iff (text : Text) :
    isFigures text = true ↔
      (∀ character ∈ text, isNumeric character = true) ∧ text.count '.' ≤ 1 := by
  simp [isFigures]

theorem isFigures_concat {text : Text} {character : Char} (h : isFigures text = true)
    (numeric : isNumeric character = true) (single : character = '.' → '.' ∉ text) :
    isFigures (text ++ [character]) = true := by
  rw [isFigures_iff] at *
  obtain ⟨all, count⟩ := h
  constructor
  · intro other member
    rcases List.mem_append.mp member with old | new
    · exact all other old
    · rw [List.mem_singleton.mp new]
      exact numeric
  · rw [List.count_append]
    by_cases point : character = '.'
    · simp [point, List.count_eq_zero_of_not_mem (single point)]
    · simp [point, count]

theorem isFigures_dropLast {text : Text} (h : isFigures text = true) :
    isFigures text.dropLast = true := by
  rw [isFigures_iff] at *
  have shorter := List.dropLast_sublist text
  constructor
  · intro character member
    exact h.1 character (shorter.subset member)
  · exact Nat.le_trans (shorter.count_le '.') h.2

theorem Literal.isFigures_text (literal : Literal) : isFigures literal.text = true := by
  have digits {text : Text} (h : ∀ character ∈ text, character.isDigit = true) :
      text.count '.' = 0 := by
    apply List.count_eq_zero_of_not_mem
    intro member
    cases h '.' member
  rw [isFigures_iff]
  refine ⟨literal.isNumeric_of_mem_text, ?_⟩
  have whole := digits literal.whole_digits
  unfold text
  split
  · omega
  next fraction shape =>
    simp [List.count_append, whole, digits (fraction_digits shape)]

/-- What is needed of the beginnings of the words, of which there are few. -/
theorem beginning_of_mem {word front : Text} (known : word ∈ displayedWords)
    (beginning : front <+: word) (typed : front ≠ []) (unsigned : front ≠ ['-']) :
    front.count '.' = 0 ∧ front.head?.any (fun first => first != '0' && first != 'E') = true ∧
      front.getLast?.any isLetter = true ∧ Shown front := by
  have all : ∀ word ∈ displayedWords, ∀ front ∈ word.inits, front ≠ [] → front ≠ ['-'] →
      front.count '.' = 0 ∧ front.head?.any (fun first => first != '0' && first != 'E') = true ∧
        front.getLast?.any isLetter = true ∧ Shown front := by
    decide
  exact all word known front ((List.mem_inits _ _).mpr beginning) typed unsigned

namespace OperandForm

variable {text : Text}

theorem ne_nil (h : OperandForm text) : text ≠ [] := by
  cases h with
  | figures negative typed figures => exact List.append_ne_nil_of_right_ne_nil _ typed
  | word known beginning typed unsigned figures => exact List.append_ne_nil_of_left_ne_nil typed _

theorem shown (h : OperandForm text) : Shown text := by
  have numeric {text : Text} (figures : isFigures text = true) : Shown text := by
    intro character member
    simp [isShown, ((isFigures_iff text).mp figures).1 character member]
  cases h with
  | figures negative typed figures => exact (shown_sign negative).append (numeric figures)
  | word known beginning typed unsigned figures =>
    obtain ⟨-, -, -, shown⟩ := beginning_of_mem known beginning typed unsigned
    exact shown.append (numeric figures)

theorem count_point (h : OperandForm text) : text.count '.' ≤ 1 := by
  cases h with
  | figures negative typed figures =>
    have sign : (Spelling.sign negative).count '.' = 0 := by cases negative <;> decide
    rw [List.count_append, sign, Nat.zero_add]
    exact ((isFigures_iff _).mp figures).2
  | word known beginning typed unsigned figures =>
    obtain ⟨pointless, -⟩ := beginning_of_mem known beginning typed unsigned
    rw [List.count_append, pointless, Nat.zero_add]
    exact ((isFigures_iff _).mp figures).2

/-- An operand ends in a digit, a point or a letter, and so never in its sign. -/
theorem getLast?_any (h : OperandForm text) :
    text.getLast?.any (fun last => isNumeric last || isLetter last) = true := by
  have numeric {text : Text} (typed : text ≠ []) (figures : isFigures text = true) :
      text.getLast?.any (fun last => isNumeric last || isLetter last) = true := by
    have last := ((isFigures_iff text).mp figures).1 _ (List.getLast_mem typed)
    simp [List.getLast?_eq_some_getLast typed, last]
  cases h with
  | figures negative typed figures =>
    rw [List.getLast?_append_of_ne_nil _ typed]
    exact numeric typed figures
  | @word word front text known beginning typed unsigned figures =>
    obtain ⟨-, -, letter, -⟩ := beginning_of_mem known beginning typed unsigned
    cases text with
    | nil =>
      rw [List.append_nil]
      cases last : front.getLast? <;> simp_all
    | cons character rest =>
      rw [List.getLast?_append_of_ne_nil _ (by simp)]
      exact numeric (by simp) figures

theorem ne_minus (h : OperandForm text) : text ≠ ['-'] := by
  intro same
  have last := h.getLast?_any
  rw [same] at last
  exact absurd last (by decide)

/-- No operand begins like a failure. -/
theorem head?_ne (h : OperandForm text) : text.head? ≠ some 'E' := by
  intro same
  cases h with
  | figures negative typed figures =>
    cases negative with
    | true => cases same
    | false =>
      have numeric := ((isFigures_iff _).mp figures).1 'E' (List.mem_of_head? same)
      exact absurd numeric (by decide)
  | word known beginning typed unsigned figures =>
    obtain ⟨-, first, -⟩ := beginning_of_mem known beginning typed unsigned
    rw [List.head?_append_of_ne_nil _ typed] at same
    simp [same] at first

/-- An operand is no failure, nor what deletions could leave of one. -/
theorem not_prefix_failure (h : OperandForm text) : ¬ text <+: Calculator.failure := by
  intro beginning
  apply h.head?_ne
  obtain ⟨rest, whole⟩ := beginning
  have first := congrArg List.head? whole
  rwa [List.head?_append_of_ne_nil _ h.ne_nil] at first

theorem ne_failure (h : OperandForm text) : text ≠ Calculator.failure := by
  intro same
  apply h.not_prefix_failure
  simp [same]

theorem concat (h : OperandForm text) {character : Char} (numeric : isNumeric character = true)
    (single : character = '.' → '.' ∉ text) : OperandForm (text ++ [character]) := by
  cases h with
  | figures negative typed figures =>
    rw [List.append_assoc]
    apply OperandForm.figures negative (by simp)
    apply isFigures_concat figures numeric
    intro point member
    exact single point (List.mem_append_right _ member)
  | word known beginning typed unsigned figures =>
    rw [List.append_assoc]
    apply OperandForm.word known beginning typed unsigned
    apply isFigures_concat figures numeric
    intro point member
    exact single point (List.mem_append_right _ member)

theorem dropLast (h : OperandForm text) (typed : text.dropLast ≠ [])
    (unsigned : text.dropLast ≠ ['-']) : OperandForm text.dropLast := by
  cases h with
  | @figures negative text filled figures =>
    rw [List.dropLast_append_of_ne_nil filled] at *
    apply OperandForm.figures negative _ (isFigures_dropLast figures)
    intro empty
    cases negative <;> simp [empty, Spelling.sign] at typed unsigned
  | @word word front text known beginning filled bare figures =>
    cases text with
    | nil =>
      rw [List.append_nil] at *
      have shorter : front.dropLast <+: word := (List.dropLast_prefix front).trans beginning
      have formed := OperandForm.word known shorter typed unsigned figures
      rwa [List.append_nil] at formed
    | cons character rest =>
      rw [List.dropLast_append_of_ne_nil (by simp)]
      exact OperandForm.word known beginning filled bare (isFigures_dropLast figures)

end OperandForm

theorem hasLeadingZero_of_head?_ne {text : Text} (h : text.head? ≠ some '0') :
    hasLeadingZero text = false := by
  unfold hasLeadingZero
  split
  · simp at h
  · rfl

/-- A zero in front is followed by a digit only in a text that is longer. -/
theorem hasLeadingZero_of_prefix {front text : Text} (beginning : front <+: text)
    (h : hasLeadingZero text = false) : hasLeadingZero front = false := by
  obtain ⟨rest, rfl⟩ := beginning
  unfold hasLeadingZero at *
  split
  · simpa using h
  · rfl

theorem hasLeadingZero_concat {text : Text} {character : Char} (h : hasLeadingZero text = false)
    (behind : text = untouched → character.isDigit = false) :
    hasLeadingZero (text ++ [character]) = false := by
  cases text with
  | nil => simp [hasLeadingZero]
  | cons first rest =>
    cases rest with
    | nil =>
      by_cases zero : first = '0'
      · subst zero
        exact behind rfl
      · apply hasLeadingZero_of_head?_ne
        simpa using zero
    | cons second others =>
      unfold hasLeadingZero at *
      split
      · simp_all
      · rfl

theorem hasLeadingZero_sign (negative : Bool) {text : Text} (h : hasLeadingZero text = false) :
    hasLeadingZero (Spelling.sign negative ++ text) = false := by
  cases negative with
  | true =>
    apply hasLeadingZero_of_head?_ne
    simp [Spelling.sign]
  | false => exact h

/-- A positive number is written without a zero in front. -/
theorem head?_toDigits_ne {number : Nat} (positive : 0 < number) :
    (Nat.toDigits 10 number).head? ≠ some '0' := by
  induction number using Nat.strongRecOn with
  | ind number ih =>
    by_cases single : number < 10
    · have all : ∀ digit < 10, 0 < digit → (Nat.toDigits 10 digit).head? ≠ some '0' := by
        decide
      exact all number single positive
    · have split := Nat.toDigits_of_base_le (b := 10) (n := number) (by decide) (by omega)
      rw [split, List.head?_append_of_ne_nil _ Nat.toDigits_ne_nil]
      apply ih
      · omega
      · omega

theorem Decimal.hasLeadingZero_layout (decimal : Decimal) :
    hasLeadingZero decimal.layout = false := by
  rw [layout_eq]
  by_cases vanishes : decimal.numerator / decimal.denominator = 0
  · have whole : decimal.laidOut.whole = ['0'] := by
      simp [laidOut, vanishes]
    rw [whole]
    split
    · rfl
    · rfl
  · apply hasLeadingZero_of_head?_ne
    have first := head?_toDigits_ne (Nat.pos_of_ne_zero vanishes)
    split
    · exact first
    · rw [List.head?_append_of_ne_nil _ decimal.laidOut_whole_ne_nil]
      exact first

namespace OperandText

variable {text : Text}

/-- Every number is displayed as an operand. -/
theorem displayText (value : Float) : OperandText (PocketCalc.displayText value) := by
  have word {word : Text} (known : word ∈ displayedWords) : OperandText word := by
    constructor
    · have all : ∀ word ∈ displayedWords, word ≠ [] ∧ word ≠ ['-'] := by decide
      obtain ⟨typed, unsigned⟩ := all word known
      have formed : OperandForm (word ++ []) :=
        .word known (List.prefix_refl word) typed unsigned rfl
      rwa [List.append_nil] at formed
    · have all : ∀ word ∈ displayedWords, hasLeadingZero word = false := by decide
      exact all word known
  unfold PocketCalc.displayText Spelling.write
  split
  · exact word (by decide)
  next negative _ => cases negative <;> exact word (by decide)
  next negative _ =>
    rw [show (negative && Spelling.display.signsZero) = false from Bool.and_false negative]
    constructor
    · exact .figures false (by decide) (by decide)
    · rfl
  next negative word _ _ =>
    constructor
    · apply OperandForm.figures negative (Decimal.layout_ne_nil _)
      rw [← Decimal.text_literal]
      exact Literal.isFigures_text _
    · exact hasLeadingZero_sign negative (Decimal.hasLeadingZero_layout _)

theorem untouched : OperandText Calculator.untouched := by
  constructor
  · exact .figures false (by decide) (by decide)
  · rfl

/-- The first digit of an operand. -/
theorem singleton {character : Char} (numeric : isNumeric character = true) :
    OperandText [character] := by
  constructor
  · apply OperandForm.figures false (by simp)
    rw [isFigures_iff]
    simp [numeric, List.count_singleton]
    split <;> omega
  · simp [hasLeadingZero]

/-- A digit goes behind any operand but an untouched one, and a point where none is yet. -/
theorem concat (h : OperandText text) {character : Char} (numeric : isNumeric character = true)
    (single : character = '.' → '.' ∉ text)
    (behind : text = Calculator.untouched → character.isDigit = false) :
    OperandText (text ++ [character]) := by
  constructor
  · exact h.form.concat numeric single
  · exact hasLeadingZero_concat h.trimmed behind

theorem dropLast (h : OperandText text) (typed : text.dropLast ≠ [])
    (unsigned : text.dropLast ≠ ['-']) : OperandText text.dropLast := by
  constructor
  · exact h.form.dropLast typed unsigned
  · exact hasLeadingZero_of_prefix (List.dropLast_prefix text) h.trimmed

end OperandText

end PocketCalc
