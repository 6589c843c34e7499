import PocketCalc.Proofs.ModeIndependence
import PocketCalc.Proofs.ReadBack
import PocketCalc.Proofs.TypedState

/-!
# Typing an expression

The keys of a keyable expression and then `=` show what the expression evaluates to, also where a
displayed number and an operator stand before it.
-/
namespace PocketCalc

open Calculator (untouched)

/-- Whether a key enters a character of an expression. -/
def Key.isTyped : Key → Bool
  | .digit _ | .operator _ | .parenthesis _ => true
  | _ => false

theorem Key.isToggle_of_isTyped {key : Key} (typed : key.isTyped = true) :
    key.isToggle = false := by
  cases key with
  | toggleAngleMode | toggleInverse => cases typed
  | _ => rfl

theorem Lexeme.isTyped_keys (lexeme : Lexeme) : ∀ key ∈ lexeme.keys, key.isTyped = true := by
  intro key member
  cases lexeme with
  | number literal =>
    obtain ⟨character, _, rfl⟩ := List.mem_map.mp member
    rfl
  | mark character token known =>
    rw [Lexeme.keys] at member
    split at member
    · rw [List.mem_singleton.mp member]
      rfl
    · rw [List.mem_singleton.mp member]
      rfl

theorem isTyped_typing (lexemes : List Lexeme) : ∀ key ∈ typing lexemes, key.isTyped = true := by
  intro key member
  obtain ⟨lexeme, _, inside⟩ := List.mem_flatMap.mp member
  exact lexeme.isTyped_keys key inside

/-- A calculator without a committed prefix and the token calculator that shows the same. -/
theorem Refines.of_idle {calculator : Calculator} (idle : calculator.pending = [])
    (shown : Shown calculator.current) (typed : calculator.current ≠ []) :
    Refines calculator
      ⟨some [], calculator.current, calculator.angleMode, calculator.inverse⟩ where
  current := rfl
  angleMode := rfl
  inverse := rfl
  committed := by
    rw [idle, tokenize_nil]
    rfl
  pending := idle ▸ .nothing
  shown := shown
  unedited := fun empty => absurd empty typed

/-- Evaluation after typing, where the token calculator knows the tokens that were typed. -/
theorem Refines.press_evaluate {calculator : Calculator} {reference : TokenCalculator}
    (h : Refines calculator reference) {keys : List Key}
    (typed : ∀ key ∈ keys, key.isTyped = true) {tokens : List Token}
    (line : (reference.pressAll keys).line = some tokens) :
    (calculator.pressAll keys).press .evaluate =
      { calculator with
        pending := []
        current := shownOutcome (Evaluation.evaluateTokens tokens) } := by
  have result : shownOutcome (Evaluation.evaluateTokens tokens) =
      ((calculator.pressAll keys).press .evaluate).current := by
    have shown := (h.pressAll keys).evaluate.current
    rw [TokenCalculator.evaluate, line] at shown
    exact shown
  have plain : ∀ key ∈ keys, key.isToggle = false := fun key member =>
    Key.isToggle_of_isTyped (typed key member)
  obtain ⟨angleMode, inverse⟩ := Prod.mk.inj (calculator.modes_pressAll plain)
  rw [result, ← angleMode, ← inverse]
  rfl

/-- A displayed number stands before an expression like an operand that has been typed. -/
theorem Completes.of_displayed {value : Float} (angleMode : AngleMode) (inverse : Bool)
    (nonzero : ∀ negative, Binary64.parts value ≠ .finite negative 0) :
    ∃ negative magnitude,
      Completes ⟨some [], displayText value, angleMode, inverse⟩
        (signedTokens negative magnitude) ∧
      (if negative then -magnitude else magnitude) = value := by
  obtain ⟨negative, magnitude, read, whole⟩ := exists_tokenize_displayText (nonzero true)
  have touched := displayText_ne_untouched nonzero
  refine ⟨negative, magnitude, ⟨?_, displayText_ne_failure value, displayText_ne_nil value, ?_⟩,
    whole⟩
  · rw [TokenCalculator.line, TokenCalculator.operand, if_neg fun both => touched both.1, read]
    rfl
  · exact fun untyped => absurd untyped touched

/-- A signed number is evaluated like the number itself. -/
theorem evaluateTokens_signedTokens (negative : Bool) (magnitude : Float) (rest : List Token) :
    Evaluation.evaluateTokens (signedTokens negative magnitude ++ rest) =
      Evaluation.evaluateTokens (.number (if negative then -magnitude else magnitude) :: rest) := by
  cases negative with
  | false => rfl
  | true => exact Evaluation.evaluateTokens_minus_number magnitude rest

theorem signsApart_signedTokens (negative : Bool) (magnitude : Float) {token : Token}
    {tokens : List Token} (first : tokens.head? ≠ some .minus) (signs : SignsApart tokens) :
    SignsApart (signedTokens negative magnitude ++ token :: tokens) := by
  have after : SignsApart (token :: tokens) :=
    signsApart_cons (fun next head minus => absurd (minus ▸ head) first) signs
  have number : SignsApart (.number magnitude :: token :: tokens) :=
    signsApart_cons (fun _ _ _ => rfl) after
  cases negative with
  | false => exact number
  | true =>
    refine signsApart_cons ?_ number
    rintro next ⟨⟩ ⟨⟩

theorem head?_token_ne_minus {lexemes : List Lexeme} (h : (spelling lexemes).head? ≠ some '-') :
    (lexemes.map Lexeme.token).head? ≠ some .minus := by
  cases lexemes with
  | nil => rintro ⟨⟩
  | cons lexeme lexemes =>
    cases lexeme with
    | number literal => rintro ⟨⟩
    | mark character token known =>
      intro minus
      have same : token = .minus := Option.some.inj minus
      subst same
      exact h (congrArg some (eq_of_ofMark?_minus known))

namespace Keyable

variable {lexemes : List Lexeme} {calculator : Calculator}

theorem evaluate_spelling (keyable : Keyable lexemes) :
    PocketCalc.evaluate (spelling lexemes) =
      Evaluation.evaluateTokens (lexemes.map Lexeme.token) := by
  rw [PocketCalc.evaluate, tokenize_spelling keyable.walk]

theorem eq_tooDeep (keyable : Keyable lexemes) {error : ExpressionError}
    (failed : PocketCalc.evaluate (spelling lexemes) = .error error) :
    error = .tooDeep Evaluation.nestingLimit := by
  obtain ⟨tree, same⟩ := keyable.sentence
  rw [keyable.evaluate_spelling, ← same, Evaluation.evaluateTokens_tokens] at failed
  split at failed
  · cases failed
  · exact (Except.error.inj failed).symm

theorem press_evaluate_of_untouched (keyable : Keyable lexemes) (idle : calculator.pending = [])
    (fresh : calculator.current = untouched) :
    (calculator.pressAll (typing lexemes)).press .evaluate =
      { calculator with
        pending := []
        current := shownOutcome (PocketCalc.evaluate (spelling lexemes)) } := by
  have start : Stands ⟨some [], calculator.current, calculator.angleMode, calculator.inverse⟩
      [] .operand :=
    ⟨rfl, Or.inl fresh, by decide⟩
  have related : Refines calculator _ :=
    .of_idle idle (fresh ▸ Calculator.shown_untouched) (fresh ▸ Calculator.untouched_ne_nil)
  rw [keyable.evaluate_spelling]
  exact related.press_evaluate (isTyped_typing lexemes)
    (start.line_pressAll keyable.walk keyable.signs keyable.zeros)

/-- An operator and a keyable expression are read as the tokens of both. -/
theorem tokenize_operator (keyable : Keyable lexemes) {character : Char} {token : Token}
    (known : Token.ofMark? character = some token) :
    tokenize (character :: spelling lexemes) = .ok (token :: lexemes.map Lexeme.token) := by
  have after : token = .times → firstMark? (spelling lexemes) ≠ some .times :=
    fun _ => firstMark?_spelling keyable.walk
  rw [tokenize_mark_start known after, tokenize_spelling keyable.walk]
  rfl

theorem press_evaluate_of_displayed (keyable : Keyable lexemes) (idle : calculator.pending = [])
    {value : Float} (current : calculator.current = displayText value)
    (nonzero : ∀ negative, Binary64.parts value ≠ .finite negative 0)
    (unsigned : (spelling lexemes).head? ≠ some '-') {character : Char} {token : Token}
    (known : Token.ofMark? character = some token) (operation : token.isOperation = true) :
    (calculator.pressAll (.operator character :: typing lexemes)).press .evaluate =
      { calculator with
        pending := []
        current := shownOutcome (Evaluation.evaluateTokens
          (.number value :: token :: lexemes.map Lexeme.token)) } := by
  obtain ⟨negative, magnitude, complete, whole⟩ :=
    Completes.of_displayed calculator.angleMode calculator.inverse nonzero
  rw [← current] at complete
  have pressed := TokenCalculator.pressAll_operator known operation complete.usable
  rw [Lexeme.keys, if_pos operation] at pressed
  have awaits : Stands _ _ .operand := complete.operation operation
  have signs : SignsApart (signedTokens negative magnitude ++ [token] ++
      lexemes.map Lexeme.token) := by
    rw [← List.append_cons]
    exact signsApart_signedTokens negative magnitude (head?_token_ne_minus unsigned) keyable.signs
  have line := awaits.line_pressAll keyable.walk signs keyable.zeros
  rw [← pressed, ← List.append_cons] at line
  have related : Refines calculator _ :=
    .of_idle idle (current ▸ shown_displayText value) (current ▸ displayText_ne_nil value)
  have typed : ∀ key ∈ Key.operator character :: typing lexemes, key.isTyped = true :=
    List.forall_mem_cons.mpr ⟨rfl, isTyped_typing lexemes⟩
  rw [related.press_evaluate typed line, evaluateTokens_signedTokens, whole]

end Keyable

/-- Typing is faithful: the keys of a keyable expression and then `=` show what the expression
evaluates to, and after a displayed number, an operator and such keys they show the value of that
number followed by what was typed. The evaluation fails for its nesting only. -/
theorem Calculator.evaluate_typed {lexemes : List Lexeme} (keyable : Keyable lexemes)
    (calculator : Calculator) (idle : calculator.pending = []) :
    ∃ keys, Key.spelled? (spelling lexemes) = some keys ∧
      (calculator.current = untouched →
        (calculator.pressAll keys).press .evaluate =
          { calculator with
            pending := []
            current := shownOutcome (PocketCalc.evaluate (spelling lexemes)) }) ∧
      (∀ error, PocketCalc.evaluate (spelling lexemes) = .error error →
        error = .tooDeep Evaluation.nestingLimit) ∧
      ∀ value character, calculator.current = displayText value →
        (∀ negative, Binary64.parts value ≠ .finite negative 0) → character ∈ operators →
        (spelling lexemes).head? ≠ some '-' →
        ∃ tokens, tokenize (character :: spelling lexemes) = .ok tokens ∧
          (calculator.pressAll (.operator character :: keys)).press .evaluate =
            { calculator with
              pending := []
              current := shownOutcome (Evaluation.evaluateTokens (.number value :: tokens)) } := by
  refine ⟨typing lexemes, Key.spelled?_spelling lexemes, ?_, ?_, ?_⟩
  · intro fresh
    exact keyable.press_evaluate_of_untouched idle fresh
  · intro error failed
    exact keyable.eq_tooDeep failed
  · intro value character current nonzero operator unsigned
    have operation := any_isOperation_ofMark? character
    rw [decide_eq_true operator] at operation
    obtain ⟨token, known, isOperation⟩ := (Option.any_eq_true _ _).mp operation
    have shown :=
      keyable.press_evaluate_of_displayed idle current nonzero unsigned known isOperation
    exact ⟨_, keyable.tokenize_operator known, shown⟩

/-- The lexemes of `2×(-.5)`. -/
def twiceNegatedHalf : List Lexeme :=
  [.number ⟨['2'], none, by decide, by decide⟩, .mark '×' .times rfl, .mark '(' .opening rfl,
   .mark '-' .minus rfl, .number ⟨[], some ['5'], by decide, by decide⟩, .mark ')' .closing rfl]

theorem keyable_twiceNegatedHalf : Keyable twiceNegatedHalf where
  sentence := by
    let two : Literal := ⟨['2'], none, by decide, by decide⟩
    let half : Literal := ⟨[], some ['5'], by decide, by decide⟩
    let negated : Grammar.Sum := .chain (.chain (.unraised (.negated (.number half.value))) .done)
      .done
    exact ⟨.chain (.chain (.unraised (.unsigned (.number two.value)))
      (.link .times (.unraised (.unsigned (.group negated))) .done)) .done, rfl⟩
  signs := by decide
  zeros := by decide

theorem Calculator.evaluate_typed_twiceNegatedHalf :
    Keyable twiceNegatedHalf ∧
      (∃ keys, Key.spelled? "2×(-.5)".toList = some keys ∧
        ((Calculator.start .degrees false).pressAll keys).press .evaluate =
          { Calculator.start .degrees false with
            current := shownOutcome (PocketCalc.evaluate "2×(-.5)".toList) }) ∧
      ∃ keys tokens, Key.spelled? "2×(-.5)".toList = some keys ∧
        tokenize "^2×(-.5)".toList = .ok tokens ∧
        ((⟨[], displayText Constant.pi.value, .radians, true⟩ : Calculator).pressAll
            (.operator '^' :: keys)).press .evaluate =
          ⟨[], shownOutcome (Evaluation.evaluateTokens (.number Constant.pi.value :: tokens)),
            .radians, true⟩ := by
  refine ⟨keyable_twiceNegatedHalf, ?_, ?_⟩
  · obtain ⟨keys, spelled, typed, _⟩ :=
      Calculator.evaluate_typed keyable_twiceNegatedHalf (.start .degrees false) rfl
    exact ⟨keys, spelled, typed rfl⟩
  · obtain ⟨keys, spelled, _, _, appended⟩ := Calculator.evaluate_typed keyable_twiceNegatedHalf
      ⟨[], displayText Constant.pi.value, .radians, true⟩ rfl
    have nonzero (negative : Bool) :
        Binary64.parts Constant.pi.value ≠ .finite negative 0 := by
      cases negative <;> decide
    obtain ⟨tokens, read, shown⟩ :=
      appended Constant.pi.value '^' rfl nonzero (by decide) (by decide)
    exact ⟨keys, tokens, spelled, read, shown⟩

end PocketCalc
