import PocketCalc.Proofs.DisplayShape
import PocketCalc.Proofs.Rendering
import PocketCalc.Proofs.RoundTrip
import PocketCalc.Proofs.SignedOperand

/-!
# The operand as it is read

A function key reads the operand as a number, and an evaluation reads it as an expression. Both
take off the sign first. What is left is a literal, the beginning of a word, or such a beginning
with figures behind it, and both make the same number of it or nothing. Only `Inf` is a number to
the first and nothing to the second: it is what is left of `Infinity` once the rest is deleted.
-/
namespace PocketCalc

open Grammar (signTokens)
open Pushdown (Due)

/-- What both readers make of an operand without its sign: the same number, or nothing. -/
inductive ReadAlike (text : Text) : Prop
  | number {value : Float} (read : Number.unsigned? text = some value)
      (scanned : tokenize text = .ok [.number value])
  | neither (unread : Number.unsigned? text = none)
      (failed : ∀ tokens, tokenize text = .ok tokens → ∀ negative,
        Due.operand.after (signTokens negative ++ tokens) ≠ some .operator)

theorem tokenize_signTokens (negative : Bool) (text : Text) :
    tokenize (Spelling.sign negative ++ text) =
      (tokenize text).map (signTokens negative ++ ·) := by
  cases negative with
  | true => exact tokenize_mark_start rfl (by simp)
  | false =>
    show tokenize text = (tokenize text).map ([] ++ ·)
    cases tokenize text <;> rfl

theorem readOperand_toOption (text : Text) :
    (readOperand text).toOption = Number.read? text := by
  unfold readOperand
  cases Number.read? text <;> rfl

/-- No tokens that leave something due are an expression. -/
theorem evaluate_toOption_of_unfinished {text : Text}
    (unfinished : ∀ tokens, tokenize text = .ok tokens →
      Due.operand.after tokens ≠ some .operator) :
    (evaluate text).toOption = none := by
  unfold evaluate
  cases read : tokenize text with
  | error error => rfl
  | ok tokens =>
    cases result : Evaluation.evaluateTokens tokens with
    | error error => simp [result, Except.toOption]
    | ok value =>
      exact absurd (Evaluation.after_of_evaluateTokens result) (unfinished tokens read)

namespace ReadAlike

variable {text : Text}

/-- The sign makes no difference between the readers. -/
theorem agree (h : ReadAlike text)
    (plain : ∀ character ∈ text.head?, character ≠ '-' ∧ character ≠ '+') (negative : Bool) :
    (readOperand (Spelling.sign negative ++ text)).toOption =
      (evaluate (Spelling.sign negative ++ text)).toOption := by
  have split := Number.splitSign_sign negative plain
  rw [readOperand_toOption]
  cases h with
  | @number value read scanned =>
    rw [evaluate_sign negative scanned]
    simp [Number.read?, split, read, Except.toOption]
  | neither unread failed =>
    rw [evaluate_toOption_of_unfinished]
    · simp [Number.read?, split, unread]
    · intro tokens read
      rw [tokenize_signTokens] at read
      obtain ⟨body, scanned, rfl⟩ := Evaluation.map_ok read
      exact failed body scanned negative

theorem of_error (unread : Number.unsigned? text = none) {error : ExpressionError}
    (failed : tokenize text = .error error) : ReadAlike text := by
  apply neither unread
  intro tokens read
  rw [failed] at read
  cases read

theorem nothing : ReadAlike [] := by
  apply neither (by decide)
  intro tokens read negative
  rw [tokenize_nil] at read
  cases read
  cases negative <;> decide

theorem literal (literal : Literal) : ReadAlike literal.text :=
  .number literal.unsigned?_text literal.tokenize_text

end ReadAlike

/-- A text of figures is a lone point or a literal. -/
theorem eq_point_or_exists_literal {text : Text} (typed : text ≠ [])
    (figures : isFigures text = true) :
    text = ['.'] ∨ ∃ literal : Literal, literal.text = text := by
  obtain ⟨numeric, single⟩ := (isFigures_iff text).mp figures
  have digits {part : Text} (inside : part ⊆ text) (pointless : '.' ∉ part) :
      ∀ character ∈ part, character.isDigit = true := by
    intro character member
    rcases Bool.or_eq_true_iff.mp (numeric character (inside member)) with digit | point
    · exact digit
    · rw [beq_iff_eq.mp point] at member
      exact absurd member pointless
  by_cases pointed : '.' ∈ text
  · obtain ⟨whole, fraction, rfl, before⟩ := List.eq_append_cons_of_mem pointed
    have behind : '.' ∉ fraction := by
      intro member
      have again := List.count_pos_iff.mpr member
      rw [List.count_append, List.count_cons_self] at single
      omega
    have all : (whole ++ fraction).all Char.isDigit = true := by
      rw [List.all_append, Bool.and_eq_true, List.all_eq_true, List.all_eq_true]
      exact ⟨digits (by simp) before, digits (by simp) behind⟩
    by_cases bare : whole ++ fraction = []
    · left
      obtain ⟨rfl, rfl⟩ := List.append_eq_nil_iff.mp bare
      rfl
    · right
      exact ⟨⟨whole, some fraction, all, bare⟩, rfl⟩
  · right
    have all : (text ++ []).all Char.isDigit = true := by
      rw [List.append_nil, List.all_eq_true]
      exact digits (List.Subset.refl text) pointed
    exact ⟨⟨text, none, all, by simpa using typed⟩, rfl⟩

theorem tokenize_point : tokenize ['.'] = .error (.invalidNumber ['.']) := by
  have shown : Shown ['.'] := by decide
  rw [tokenize, shown.normalize, scan_cons]
  rfl

theorem ReadAlike.figures {text : Text} (typed : text ≠ []) (figures : isFigures text = true) :
    ReadAlike text := by
  rcases eq_point_or_exists_literal typed figures with rfl | ⟨literal, rfl⟩
  · exact .of_error (by decide) tokenize_point
  · exact .literal literal

/-- What deletions leave of the words for numbers, without the sign. -/
def wordBeginnings : List Text :=
  ("Infinity".toList.inits ++ "NaN".toList.inits).filter (!·.isEmpty)

/-- What is left of `Infinity` is a word of its own to one of the readers. -/
def shortInfinity : Text := "Inf".toList

theorem exists_of_beginning {word front : Text} (known : word ∈ displayedWords)
    (beginning : front <+: word) (typed : front ≠ []) (unsigned : front ≠ ['-']) :
    ∃ negative, ∃ letters ∈ wordBeginnings, front = Spelling.sign negative ++ letters := by
  have all : ∀ word ∈ displayedWords, ∀ front ∈ word.inits, front ≠ [] → front ≠ ['-'] →
      ∃ negative, ∃ letters ∈ wordBeginnings, front = Spelling.sign negative ++ letters := by
    decide
  exact all word known front ((List.mem_inits _ _).mpr beginning) typed unsigned

theorem beginning_letters {letters : Text} (known : letters ∈ wordBeginnings) :
    letters ≠ [] ∧ Shown letters ∧ letters.all isLetter = true := by
  have all : ∀ letters ∈ wordBeginnings,
      letters ≠ [] ∧ Shown letters ∧ letters.all isLetter = true := by
    decide
  exact all letters known

theorem unsigned?_beginning {letters : Text} (known : letters ∈ wordBeginnings)
    (other : letters ≠ shortInfinity) : Number.unsigned? letters = wordValue? letters := by
  have all : ∀ letters ∈ wordBeginnings, letters ≠ shortInfinity →
      Number.unsigned? letters = wordValue? letters := by
    decide
  exact all letters known other

/-- No number is read where figures stand behind letters. -/
theorem unsigned?_letters_figures {letters figures : Text} (some : letters ≠ [])
    (spelled : letters.all isLetter = true) (typed : figures ≠ [])
    (numeric : ∀ character ∈ figures, isNumeric character = true) :
    Number.unsigned? (letters ++ figures) = none := by
  have lower : ((letters ++ figures).map Char.toLower).getLast?.any isNumeric = true := by
    have last := numeric _ (List.getLast_mem typed)
    simp [List.getLast?_append, List.getLast?_eq_some_getLast typed, toLower_of_isNumeric last,
      last]
  have noWord (word : Text) (quiet : word.getLast?.any isNumeric = false) :
      (letters ++ figures).map Char.toLower ≠ word := by
    rintro rfl
    rw [quiet] at lower
    cases lower
  have noNumeral : Number.scaled? (letters ++ figures) = none := by
    cases letters with
    | nil => exact absurd rfl some
    | cons first rest =>
      have letter := List.all_eq_true.mp spelled first List.mem_cons_self
      have quiet := not_isNumeric_of_isLetter letter
      obtain ⟨digit, point⟩ : first.isDigit = false ∧ first ≠ '.' := by
        simpa [isNumeric] using quiet
      simp [Number.scaled?, Numeral.span, digit, point, Numeral.isEmpty]
  have notInfinity : ¬ ((letters ++ figures).map Char.toLower = "inf".toList ∨
      (letters ++ figures).map Char.toLower = "infinity".toList) :=
    not_or.mpr ⟨noWord _ (by decide), noWord _ (by decide)⟩
  unfold Number.unsigned?
  dsimp only
  rw [if_neg notInfinity, if_neg (noWord _ (by decide)), noNumeral]
  rfl

theorem ReadAlike.letters {letters : Text} (known : letters ∈ wordBeginnings)
    (other : letters ≠ shortInfinity) : ReadAlike letters := by
  obtain ⟨some, shown, spelled⟩ := beginning_letters known
  have read := unsigned?_beginning known other
  have scanned := tokenize_letters some shown spelled
  cases value : wordValue? letters with
  | none =>
    rw [value] at read scanned
    exact .of_error read scanned
  | some number =>
    rw [value] at read scanned
    exact .number read scanned

/-- Figures behind a word are read on their own. -/
theorem tokenize_beginning {letters figures : Text} (known : letters ∈ wordBeginnings)
    (shape : isFigures figures = true) :
    tokenize (letters ++ figures) =
      match wordValue? letters with
      | some value => (tokenize figures).map (.number value :: ·)
      | none => .error (.unrecognizedToken letters) := by
  obtain ⟨some, shown, spelled⟩ := beginning_letters known
  have numeric := ((isFigures_iff figures).mp shape).1
  have shownFigures : Shown figures := by
    intro character member
    simp [isShown, numeric character member]
  have stop : ∀ character ∈ figures.head?, isLetter character = false := by
    intro character member
    exact not_isLetter_of_isNumeric (numeric character (List.mem_of_head? member))
  have whole : tokenize (letters ++ figures) = scan (letters ++ figures) := by
    rw [tokenize, (shown.append shownFigures).normalize]
  have behind : tokenize figures = scan figures := by rw [tokenize, shownFigures.normalize]
  refine (whole.trans (scan_word some spelled stop)).trans ?_
  cases wordValue? letters with
  | some value => exact congrArg (Except.map (.number value :: ·)) behind.symm
  | none => rfl

/-- Figures behind a word are a second number in a row to the tokenizer, or a lone point. -/
theorem ReadAlike.letters_figures {letters figures : Text} (known : letters ∈ wordBeginnings)
    (typed : figures ≠ []) (shape : isFigures figures = true) :
    ReadAlike (letters ++ figures) := by
  obtain ⟨some, -, spelled⟩ := beginning_letters known
  have numeric := ((isFigures_iff figures).mp shape).1
  apply ReadAlike.neither (unsigned?_letters_figures some spelled typed numeric)
  intro tokens read negative
  rw [tokenize_beginning known shape] at read
  split at read
  next value _ =>
    obtain ⟨others, rest, rfl⟩ := Evaluation.map_ok read
    rcases eq_point_or_exists_literal typed shape with rfl | ⟨literal, rfl⟩
    · rw [tokenize_point] at rest
      cases rest
    · rw [literal.tokenize_text] at rest
      cases rest
      cases negative <;> simp [signTokens, Due.next]
  · cases read

theorem ReadAlike.beginning {letters figures : Text} (known : letters ∈ wordBeginnings)
    (shape : isFigures figures = true) (other : letters ++ figures ≠ shortInfinity) :
    ReadAlike (letters ++ figures) := by
  by_cases typed : figures = []
  · subst typed
    rw [List.append_nil] at *
    exact .letters known other
  · exact .letters_figures known typed shape

theorem beginning_head {letters : Text} (known : letters ∈ wordBeginnings) (figures : Text) :
    ∀ character ∈ (letters ++ figures).head?, character ≠ '-' ∧ character ≠ '+' := by
  intro character member
  obtain ⟨some, -, spelled⟩ := beginning_letters known
  rw [List.head?_append_of_ne_nil _ some] at member
  have letter := List.all_eq_true.mp spelled character (List.mem_of_head? member)
  constructor
  · rintro rfl
    exact absurd letter (by decide)
  · rintro rfl
    exact absurd letter (by decide)

theorem figures_head {text : Text} (figures : isFigures text = true) :
    ∀ character ∈ text.head?, character ≠ '-' ∧ character ≠ '+' := by
  intro character member
  exact ne_sign_of_isNumeric
    (((isFigures_iff text).mp figures).1 character (List.mem_of_head? member))

/-- Both readers agree on an operand that is not the short infinity. -/
theorem OperandForm.agree {text : Text} (h : OperandForm text)
    (other : ∀ negative, text ≠ Spelling.sign negative ++ shortInfinity) :
    (readOperand text).toOption = (evaluate text).toOption := by
  cases h with
  | @figures negative text typed figures =>
    exact (ReadAlike.figures typed figures).agree (figures_head figures) negative
  | @word word front text known beginning typed unsigned figures =>
    obtain ⟨negative, letters, begun, rfl⟩ := exists_of_beginning known beginning typed unsigned
    rw [List.append_assoc] at *
    have long : letters ++ text ≠ shortInfinity := by
      intro same
      exact other negative (congrArg (Spelling.sign negative ++ ·) same)
    exact (ReadAlike.beginning begun figures long).agree (beginning_head begun text) negative

theorem Editable.agree {text : Text} (h : Editable text)
    (other : ∀ negative, text ≠ Spelling.sign negative ++ shortInfinity) :
    (readOperand text).toOption = (evaluate text).toOption := by
  rcases h with rfl | rfl | operand
  · have failed := ReadAlike.of_error (by decide) Calculator.tokenize_failure
    apply failed.agree _ false
    intro character member
    obtain rfl : 'E' = character := Option.some.inj member
    decide
  · exact ReadAlike.nothing.agree (by simp) false
  · exact operand.form.agree other

theorem readOperand_shortInfinity (negative : Bool) :
    readOperand (Spelling.sign negative ++ shortInfinity) =
      .ok (if negative then -Binary64.infinity else Binary64.infinity) := by
  cases negative <;> rfl

theorem evaluate_shortInfinity (negative : Bool) :
    evaluate (Spelling.sign negative ++ shortInfinity) =
      .error (.unrecognizedToken shortInfinity) := by
  have unknown : tokenize shortInfinity = .error (.unrecognizedToken shortInfinity) :=
    tokenize_letters (by decide) (by decide) (by decide)
  rw [evaluate, tokenize_signTokens, unknown]
  rfl

theorem Editable.agree_iff {text : Text} (h : Editable text) :
    (readOperand text).toOption = (evaluate text).toOption ↔
      ∀ negative, text ≠ Spelling.sign negative ++ shortInfinity := by
  constructor
  · rintro alike negative rfl
    rw [readOperand_shortInfinity, evaluate_shortInfinity] at alike
    cases alike
  · exact h.agree

/-- The keys of one over zero, with a sign before it or not. -/
def divisionByZero (negative : Bool) : List Key :=
  (if negative then [.operator '-'] else []) ++
    [.digit '1', .operator '/', .digit '0', .evaluate]

/-- The quotient of one, with a sign before it or not, and zero. -/
def quotientByZero (negative : Bool) : Grammar.Sum :=
  let one : Grammar.Phrase .primary := .number (Decimal.literal ⟨1, 0⟩).value
  let zero : Grammar.Phrase .primary := .number (Decimal.literal ⟨0, 0⟩).value
  .chain (.chain (.unraised (if negative then .negated one else .unsigned one))
    (.link .over (.unraised (.unsigned zero)) .done)) .done

theorem value_quotientByZero (negative : Bool) :
    (quotientByZero negative).value =
      if negative then -Binary64.infinity else Binary64.infinity := by
  cases negative <;> decide +kernel

theorem evaluate_divisionByZero (negative : Bool) :
    evaluate (Spelling.sign negative ++ "1/0".toList) =
      .ok (if negative then -Binary64.infinity else Binary64.infinity) := by
  let lexemes : List Lexeme :=
    [.number (Decimal.literal ⟨1, 0⟩), .mark '/' .over rfl, .number (Decimal.literal ⟨0, 0⟩)]
  have spelled : "1/0".toList = spelling lexemes := rfl
  have scanned : tokenize (spelling lexemes) = .ok (lexemes.map Lexeme.token) :=
    tokenize_spelling (rfl : Pushdown.Due.operand.after (lexemes.map Lexeme.token) = some .operator)
  have result := Evaluation.evaluateTokens_tokens (quotientByZero negative)
  rw [value_quotientByZero] at result
  rw [evaluate, spelled, tokenize_signTokens, scanned]
  cases negative <;> exact result

theorem displayText_infinity (negative : Bool) :
    displayText (if negative then -Binary64.infinity else Binary64.infinity) =
      Spelling.sign negative ++ "Infinity".toList := by
  cases negative with
  | false =>
    simp only [displayText, Spelling.write, Bool.false_eq_true, if_false, parts_infinity]
    rfl
  | true =>
    have infinite : Binary64.parts (-Binary64.infinity) = .infinite true := by decide
    simp only [displayText, Spelling.write, if_true, infinite]
    rfl

namespace Calculator

theorem pressAll_divisionByZero (negative : Bool) (angleMode : AngleMode) (inverse : Bool) :
    (start angleMode inverse).pressAll (divisionByZero negative) =
      ⟨[], displayText (if negative then -Binary64.infinity else Binary64.infinity), angleMode,
        inverse⟩ := by
  have evaluated : (start angleMode inverse).pressAll (divisionByZero negative) =
      ⟨[], resultText (Spelling.sign negative ++ "1/0".toList), angleMode, inverse⟩ := by
    cases negative <;> rfl
  rw [evaluated, resultText, evaluate_divisionByZero]

/-- Five deletions shorten a displayed infinity to `Inf`. -/
theorem current_delete_infinity {calculator : Calculator} {negative : Bool}
    (shown : calculator.current = Spelling.sign negative ++ "Infinity".toList) :
    (calculator.pressAll (List.replicate 5 .delete)).current =
      Spelling.sign negative ++ shortInfinity := by
  cases calculator with
  | mk pending current angleMode inverse =>
    subst shown
    cases negative <;> rfl

/-- The function keys and an evaluation read the operand of every reachable display alike: either
both fail, or both read the same number. The exceptions are `Inf` and `-Inf`, to which a displayed
infinity is shortened; only the function keys read a number there. -/
theorem readings_agree :
    (∀ (angleMode : AngleMode) (inverse : Bool) (keys : List Key),
      let current := ((start angleMode inverse).pressAll keys).current
      (readOperand current).toOption = (PocketCalc.evaluate current).toOption ↔
        current ≠ "Inf".toList ∧ current ≠ "-Inf".toList) ∧
      ∀ (negative : Bool) (angleMode : AngleMode) (inverse : Bool),
        let infinite := if negative then -Binary64.infinity else Binary64.infinity
        ∃ (keys : List Key) (deletions : Nat),
          let shown := (start angleMode inverse).pressAll keys
          let current := (shown.pressAll (List.replicate deletions .delete)).current
          shown.current = displayText infinite ∧
            current = (if negative then "-Inf".toList else "Inf".toList) ∧
            readOperand current = .ok infinite ∧
            PocketCalc.evaluate current = .error (.unrecognizedToken "Inf".toList) := by
  constructor
  · intro angleMode inverse keys current
    have shape := (Shaped.start angleMode inverse).pressAll keys
    rw [shape.current.agree_iff]
    constructor
    · intro other
      exact ⟨other false, other true⟩
    · rintro ⟨positive, negative⟩ signed
      cases signed with
      | false => exact positive
      | true => exact negative
  · intro negative angleMode inverse infinite
    refine ⟨divisionByZero negative, 5, ?_⟩
    dsimp only
    rw [pressAll_divisionByZero, current_delete_infinity (displayText_infinity negative)]
    refine ⟨rfl, ?_, readOperand_shortInfinity negative, evaluate_shortInfinity negative⟩
    cases negative <;> rfl

end Calculator
end PocketCalc
