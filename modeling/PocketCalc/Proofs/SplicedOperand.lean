import PocketCalc.Proofs.DisplayShape
import PocketCalc.Proofs.RoundTrip
import PocketCalc.Proofs.SignedOperand

/-!
# A number behind a committed text

A displayed number is put behind the committed text as it is displayed, with its minus as a
character of its own. Behind a closing parenthesis that minus is a subtraction, and behind a lone
minus it is a second sign, which is refused. Behind all else the text is evaluated as if the number
had been put there as one token.
-/
namespace PocketCalc

open Calculator (untouched failure endsInOperator endsInOperator_concat)
open Pushdown (Due)

/-- A lexeme that no text follows is a number, if it does not end in a delimiter. -/
theorem isNumber_of_lexeme {character : Char} {rest later : Text} {token : Option Token}
    (read : lexeme character rest = .ok (token, later)) (whole : later = [])
    (last : (character :: rest).getLast?.any isDelimiter = false) :
    token.any Token.isNumber = true := by
  have alone (empty : rest = []) : isDelimiter character = false := by
    simpa [empty] using last
  unfold lexeme at read
  dsimp only at read
  split at read
  · split at read
    · cases read
      rfl
    · cases read
  · split at read
    · split at read
      · cases read
      · cases read
        rfl
    · split at read
      next times =>
        split at read
        next doubled =>
          cases read
          cases rest with
          | nil => cases doubled
          | cons second rest =>
            obtain rfl : second = '*' := Option.some.inj doubled
            obtain rfl : rest = [] := whole
            exact absurd last (by simp [isDelimiter, isOperator, Token.ofOperator?])
        · cases read
          simp [isDelimiter, isOperator, times] at alone
          exact absurd whole alone
      next other known =>
        cases read
        simp [isDelimiter, isOperator, known] at alone
        exact absurd whole alone
      · split at read
        next blank =>
          cases read
          simp [isDelimiter, blank] at alone
          exact absurd whole alone
        · cases read

theorem any_getLast?_append {predicate : Token → Bool} (front : List Token) {back : List Token}
    (h : back.getLast?.any predicate = true) :
    (front ++ back).getLast?.any predicate = true := by
  rw [List.getLast?_append]
  cases ending : back.getLast? with
  | none => simp [ending] at h
  | some token => simpa [ending] using h

/-- A text that ends in no delimiter ends in a number, if it has tokens at all. -/
theorem scan_getLast? {text : Text} {tokens : List Token} (read : scan text = .ok tokens)
    (typed : text ≠ []) (last : text.getLast?.any isDelimiter = false) :
    tokens.getLast?.any Token.isNumber = true := by
  fun_induction scan text generalizing tokens with
  | case1 => exact absurd rfl typed
  | case2 => cases read
  | case3 character rest token later found _ ih =>
    obtain ⟨others, scanned, rfl⟩ := Evaluation.map_ok read
    by_cases whole : later = []
    · have number := isNumber_of_lexeme found whole last
      subst whole
      obtain rfl : others = [] := by simpa [scan] using scanned.symm
      cases token <;> simp_all
    · obtain ⟨front, rfl⟩ := lexeme_suffix found
      have kept : (character :: (front ++ later)).getLast? = later.getLast? :=
        List.getLast?_append_of_ne_nil (character :: front) whole
      apply any_getLast?_append
      apply ih scanned whole
      rw [← kept]
      exact last

theorem OperandForm.tokenize_getLast? {text : Text} (h : OperandForm text) {tokens : List Token}
    (read : tokenize text = .ok tokens) : tokens.getLast?.any Token.isNumber = true := by
  rw [tokenize, h.shown.normalize] at read
  apply scan_getLast? read h.ne_nil
  have last := h.getLast?_any
  cases ending : text.getLast? with
  | none => simp
  | some character =>
    rw [ending] at last
    rw [Option.any_some, Bool.eq_false_iff]
    intro delimiter
    obtain ⟨digit, point⟩ := not_numeric_of_isDelimiter delimiter
    simp [isNumeric, digit, point, not_isLetter_of_isDelimiter delimiter] at last

theorem exists_ofMark?_of_isMark {character : Char} (h : isMark character = true) :
    ∃ token, Token.ofMark? character = some token := by
  simp only [isMark, Bool.or_eq_true, decide_eq_true_eq, beq_iff_eq] at h
  rcases h with (operator | rfl) | rfl
  · obtain ⟨token, known, -⟩ := exists_ofMark?_of_mem operator
    exact ⟨token, known⟩
  · exact ⟨.opening, rfl⟩
  · exact ⟨.closing, rfl⟩

namespace Segmented

variable {pending : Text} {tokens : List Token}

theorem committed (h : Segmented pending) : Committed pending := by
  cases h with
  | nothing => exact .nothing
  | @mark front character before known apart =>
    obtain ⟨token, known⟩ := exists_ofMark?_of_isMark known
    apply Committed.mark known
    intro operation times
    have free := apart ((mem_operators_iff known).mpr operation)
    rw [endsInOperator_eq, times] at free
    cases free
  | @operand front operand character before form touched known =>
    obtain ⟨token, known⟩ := exists_ofMark?_of_isMark known
    apply Committed.mark known
    intro _
    exact form.form.shown.lastMark?_append_ne_times form.form.ne_nil front

/-- An operand is finished behind a closing parenthesis only. -/
theorem getLast?_of_finished (h : Segmented pending) (read : tokenize pending = .ok tokens)
    (finished : Due.operand.after tokens = some .operator) : pending.getLast? = some ')' := by
  have last := (Due.after_eq_operator_iff finished).mp rfl
  rw [h.committed.getLast?_tokens read] at last
  apply (lastMark?_eq_closing_iff pending).mp
  unfold lastMark? at *
  cases ending : pending.getLast? with
  | none => simp [ending] at last
  | some character =>
    rw [ending] at last
    cases mark : Token.ofMark? character with
    | none => simp [mark] at last
    | some token =>
      have number := isNumber_of_ofMark? mark
      cases token <;> simp_all [Token.isNumber, Token.isClosing]

/-- A sign is read behind nothing or behind an opening parenthesis only. -/
theorem eq_of_signed (h : Segmented pending) (read : tokenize pending = .ok tokens)
    (signed : Due.operand.after tokens = some .primary) :
    pending = ['-'] ∨ ['(', '-'] <:+ pending := by
  obtain ⟨others, rfl, awaits⟩ := Due.exists_of_after_primary signed
  -- Behind a finished operand the minus would be a subtraction.
  have unfinished : others.getLast?.any (fun last => last.isNumber || last.isClosing) = false := by
    rw [Bool.eq_false_iff]
    intro last
    cases (Due.after_eq_operator_iff awaits).mpr last
  have whole := h.committed
  cases h with
  | nothing => simp [tokenize_nil] at read
  | @mark front character before known apart =>
    obtain ⟨first, minus⟩ := whole.of_tokenize_concat read
    obtain rfl := eq_of_ofMark?_minus minus
    have free : endsInOperator front = false := apart (by decide)
    rw [before.committed.getLast?_tokens first] at unfinished
    rcases List.eq_nil_or_concat' front with rfl | ⟨lead, mark, rfl⟩
    · left
      rfl
    · right
      have known : isMark mark = true := by
        simpa using before.getLast?_isMark (by simp)
      rw [endsInOperator_concat] at free
      simp only [isMark, free, Bool.false_or, Bool.or_eq_true, beq_iff_eq] at known
      rcases known with rfl | rfl
      · exact ⟨lead, by simp⟩
      · simp [lastMark?, Token.ofMark?, Token.ofOperator?, Token.isClosing] at unfinished
  | @operand front operand character before form touched known =>
    obtain ⟨first, -⟩ := whole.of_tokenize_concat read
    rw [before.committed.tokenize_append form.form.shown] at first
    obtain ⟨leading, -, rest⟩ := Evaluation.bind_ok first
    obtain ⟨tokens, known, rfl⟩ := Evaluation.map_ok rest
    obtain ⟨last, ending, number⟩ := (Option.any_eq_true _ _).mp
      (any_getLast?_append leading (form.form.tokenize_getLast? known))
    rw [ending] at unfinished
    simp [number] at unfinished

end Segmented

theorem exists_tokens_of_opened {text : Text} {tokens : List Token} (opened : ['(', '-'] <:+ text)
    (read : tokenize text = .ok tokens) : ∃ front, tokens = front ++ [.opening, .minus] := by
  obtain ⟨lead, rfl⟩ := opened
  have opening : Token.ofMark? '(' = some .opening := rfl
  have minus : Token.ofMark? '-' = some .minus := rfl
  have apart : lastMark? (lead ++ ['(']) ≠ some .times := by simp [lastMark?, opening]
  rw [List.append_cons, tokenize_mark_end minus fun _ => apart,
    tokenize_mark_end opening (by simp [Token.isOperation])] at read
  obtain ⟨leading, first, rest⟩ := Evaluation.bind_ok read
  obtain ⟨front, -, behind⟩ := Evaluation.bind_ok first
  cases behind
  cases rest
  exact ⟨front, by simp⟩

/-- What an evaluation shows for these tokens behind a committed text. -/
def resultBehind (pending : Text) (operand : List Token) : Text :=
  match tokenize pending with
  | .ok committed => shownOutcome (Evaluation.evaluateTokens (committed ++ operand))
  | .error _ => Calculator.failure

theorem shownOutcome_congr {first second : Except ExpressionError Float}
    (same : ∀ value, first = .ok value ↔ second = .ok value) :
    shownOutcome first = shownOutcome second := by
  cases first with
  | ok value => rw [(same value).mp rfl]
  | error error =>
    cases second with
    | ok value => cases (same value).mpr rfl
    | error error => rfl

/-- An operand is read on its own behind what is committed. -/
theorem resultText_append {pending operand : Text} (h : Segmented pending) (shown : Shown operand)
    {tokens : List Token} (read : tokenize operand = .ok tokens) :
    Calculator.resultText (pending ++ operand) = resultBehind pending tokens := by
  rw [Calculator.resultText_eq, PocketCalc.evaluate, h.committed.tokenize_append shown, read,
    resultBehind]
  cases tokenize pending <;> rfl

theorem resultBehind_eq_failure {pending : Text} {operand : List Token}
    (refused : ∀ committed value, tokenize pending = .ok committed →
      Evaluation.evaluateTokens (committed ++ operand) ≠ .ok value) :
    resultBehind pending operand = failure := by
  unfold resultBehind
  cases read : tokenize pending with
  | error error => rfl
  | ok committed =>
    cases result : Evaluation.evaluateTokens (committed ++ operand) with
    | error error =>
      simp only [result]
      rfl
    | ok value => exact absurd result (refused committed value read)

/-- Nothing closes a parenthesis that the committed text ends in, with or without a minus. -/
theorem resultBehind_of_opened {pending : Text} (opened : ['(', '-'] <:+ pending)
    {operand : List Token} (unclosed : Token.closing ∉ operand) :
    resultBehind pending operand = failure := by
  apply resultBehind_eq_failure
  intro committed value read
  obtain ⟨front, rfl⟩ := exists_tokens_of_opened opened read
  rw [List.append_assoc]
  apply Pushdown.evaluateTokens_unclosed
  simpa using unclosed

/-- A minus before a number is its sign wherever it is neither a subtraction nor a second sign.
Behind a parenthesis and a sign nothing is evaluated, since the parenthesis stays open. -/
theorem resultBehind_sign {pending : Text} (h : Segmented pending)
    (unfinished : pending.getLast? ≠ some ')') (unsigned : pending ≠ ['-']) (number : Float) :
    resultBehind pending [.minus, .number number] = resultBehind pending [.number (-number)] := by
  by_cases opened : ['(', '-'] <:+ pending
  · rw [resultBehind_of_opened opened (by simp), resultBehind_of_opened opened (by simp)]
  · unfold resultBehind
    cases read : tokenize pending with
    | error error => rfl
    | ok committed =>
      apply shownOutcome_congr
      apply Evaluation.evaluateTokens_sign
      · intro finished
        exact unfinished (h.getLast?_of_finished read finished)
      · intro signed
        rcases h.eq_of_signed read signed with alone | behind
        · exact unsigned alone
        · exact opened behind

/-- No number may stand behind a closing parenthesis. -/
theorem resultBehind_of_closing {pending : Text} (h : Segmented pending)
    (closed : pending.getLast? = some ')') (number : Float) :
    resultBehind pending [.number number] = failure := by
  apply resultBehind_eq_failure
  intro committed value read result
  obtain ⟨between, reached, stepped⟩ :=
    Due.exists_of_after_concat (Evaluation.after_of_evaluateTokens result)
  have last : committed.getLast? = some .closing := by
    rw [h.committed.getLast?_tokens read]
    exact (lastMark?_eq_closing_iff pending).mpr closed
  obtain rfl := (Due.after_eq_operator_iff reached).mpr (by simp [last, Token.isClosing])
  cases stepped

theorem tokenize_minus : tokenize ['-'] = .ok [.minus] := by
  rw [tokenize_mark_start rfl (by simp), tokenize_nil]
  rfl

/-- No sign may stand behind a sign. -/
theorem resultBehind_two_signs (number : Float) :
    resultBehind ['-'] [.minus, .number number] = failure := by
  apply resultBehind_eq_failure
  intro committed value read result
  rw [tokenize_minus] at read
  cases read
  cases Evaluation.after_of_evaluateTokens result

theorem resultBehind_minus (number : Float) :
    resultBehind ['-'] [.number number] = displayText (-number) := by
  let negated : Grammar.Sum :=
    .chain (.chain (.unraised (.negated (.number number))) .done) .done
  have value : Evaluation.evaluateTokens negated.tokens = .ok (-number) :=
    Evaluation.evaluateTokens_tokens negated
  rw [resultBehind, tokenize_minus]
  dsimp only
  rw [List.singleton_append]
  exact congrArg shownOutcome value

/-- A number in parentheses less another. -/
theorem resultBehind_grouped (literal : Literal) (number : Float) :
    resultBehind ('(' :: (literal.text ++ [')'])) [.minus, .number number] =
      displayText (literal.value - number) := by
  let lexemes : List Lexeme := [.mark '(' .opening rfl, .number literal, .mark ')' .closing rfl]
  have spelled : '(' :: (literal.text ++ [')']) = spelling lexemes := rfl
  have committed : tokenize (spelling lexemes) = .ok (lexemes.map Lexeme.token) :=
    tokenize_spelling (rfl : Due.operand.after (lexemes.map Lexeme.token) = some .operator)
  let inner : Grammar.Sum :=
    .chain (.chain (.unraised (.unsigned (.number literal.value))) .done) .done
  let difference : Grammar.Sum := .chain (.chain (.unraised (.unsigned (.group inner))) .done)
    (.link .minus (.chain (.unraised (.unsigned (.number number))) .done) .done)
  have value : Evaluation.evaluateTokens difference.tokens = .ok (literal.value - number) :=
    Evaluation.evaluateTokens_tokens difference
  rw [spelled, resultBehind, committed]
  exact congrArg shownOutcome value

theorem head?_displayText_of_parts {value : Float} {word : Nat}
    (h : Binary64.parts value = .finite true word) (nonzero : word ≠ 0) :
    (displayText value).head? = some '-' := by
  unfold displayText Spelling.write
  rw [h]
  cases word with
  | zero => exact absurd rfl nonzero
  | succ word => rfl

/-- The tokens of a displayed number: the number, or a minus and its negation. -/
theorem tokenize_displayText {value : Float} (signed : value.toBits ≠ 0x8000000000000000) :
    tokenize (displayText value) =
      .ok (if (displayText value).head? = some '-' then [.minus, .number (-value)]
        else [.number value]) := by
  have parted := mt (parts_eq_negativeZero_iff value).mp signed
  obtain ⟨negative, text, magnitude, shown, read, whole⟩ := exists_magnitude_displayText parted
  have tokens := tokenize_sign negative read.tokenize
  rw [shown, tokens]
  cases negative with
  | true =>
    have opposite : -value = magnitude := by
      rw [← whole]
      exact Binary64.neg_neg magnitude
    rw [opposite]
    rfl
  | false =>
    have plain : (Spelling.sign false ++ text).head? ≠ some '-' := by
      intro first
      exact (read.head?_ne_sign '-' first).1 rfl
    rw [if_neg plain, ← whole]
    rfl

/-- Evaluation sees the tokens of a displayed number behind what is committed. -/
theorem Shaped.evaluate_displayed {calculator : Calculator} (h : Shaped calculator) {value : Float}
    (shown : calculator.current = displayText value) (signed : value.toBits ≠ 0x8000000000000000)
    (typed : ¬ (calculator.current = untouched ∧ calculator.pending.getLast? = some ')')) :
    (calculator.press .evaluate).current =
      resultBehind calculator.pending
        (if (displayText value).head? = some '-' then [.minus, .number (-value)]
        else [.number value]) := by
  have operand : calculator.operand = displayText value := by
    rw [Calculator.operand, if_neg typed]
    exact shown
  have result := resultText_append h.pending (shown_displayText value)
    (tokenize_displayText signed)
  rw [← operand] at result
  rw [← operand]
  exact result

/-- Evaluation with a displayed number under edit, in every state that can be reached. The number
counts as one token behind what is committed, unless it is displayed with a minus: behind a closing
parenthesis it is subtracted, and behind a lone minus it is refused. -/
theorem Calculator.evaluate_spliced (angleMode : AngleMode) (inverse : Bool) (keys : List Key)
    {value : Float}
    (shown : ((Calculator.start angleMode inverse).pressAll keys).current = displayText value)
    (signed : value.toBits ≠ 0x8000000000000000)
    (typed : ¬ (((Calculator.start angleMode inverse).pressAll keys).current = untouched ∧
      ((Calculator.start angleMode inverse).pressAll keys).pending.getLast? = some ')')) :
    let calculator := (Calculator.start angleMode inverse).pressAll keys
    (calculator.press .evaluate).pending = [] ∧
      ((displayText value).head? ≠ some '-' ∨
          calculator.pending.getLast? ≠ some ')' ∧ calculator.pending ≠ ['-'] →
        (calculator.press .evaluate).current = resultBehind calculator.pending [.number value]) ∧
      ((displayText value).head? = some '-' ∧ calculator.pending.getLast? = some ')' →
        (calculator.press .evaluate).current =
          resultBehind calculator.pending [.minus, .number (-value)]) ∧
      ((displayText value).head? = some '-' ∧ calculator.pending = ['-'] →
        (calculator.press .evaluate).current = failure) := by
  intro calculator
  have shape : Shaped calculator := (Shaped.start angleMode inverse).pressAll keys
  rw [shape.evaluate_displayed shown signed typed]
  refine ⟨rfl, ?_, ?_, ?_⟩
  · rintro (plain | ⟨unfinished, unsigned⟩)
    · rw [if_neg plain]
    · split
      · rw [resultBehind_sign shape.pending unfinished unsigned, Binary64.neg_neg]
      · rfl
  · rintro ⟨minus, -⟩
    rw [if_pos minus]
  · rintro ⟨minus, alone⟩
    rw [if_pos minus, alone, resultBehind_two_signs]

namespace Calculator

/-- The cosine of `π` is displayed behind what is committed. -/
theorem pressAll_cos {keys : List Key} {pending : Text}
    (typed : (start .radians false).pressAll keys =
      ⟨pending, displayText Constant.pi.value, .radians, false⟩) :
    (start .radians false).pressAll (keys ++ [.function (.trig .cos)]) =
      ⟨pending, displayText (Float.cos Constant.pi.value), .radians, false⟩ := by
  have read : readOperand (displayText Constant.pi.value) = .ok Constant.pi.value :=
    readOperand_displayText (by decide)
  rw [pressAll_append, typed]
  simp [pressAll, press, applyFunction, read, Scientific.apply, Trig.forward, AngleMode.toRadians]

theorem head?_displayText_cos
    (cosine : (Float.cos Constant.pi.value).toBits = 0xBFF0000000000000) :
    (displayText (Float.cos Constant.pi.value)).head? = some '-' := by
  have parted : Binary64.parts (Float.cos Constant.pi.value) = .finite true 0x3FF0000000000000 := by
    simp only [Binary64.parts, cosine]
    decide
  exact head?_displayText_of_parts parted (by decide)

/-- The operands are `π`, the `-3` of an evaluation, and the cosine of `π` behind `2+`. No
definition here gives that cosine, so the last is said of minus one. -/
theorem evaluate_spliced_signs :
    let result (keys : List Key) : Text :=
      (((start .radians false).pressAll keys).press .evaluate).current
    let sum : List Key := [.digit '2', .operator '+', .constant .pi]
    let negative : List Key := [.operator '-', .digit '3', .evaluate]
    let cosine : Float := Float.cos Constant.pi.value
    result sum = resultBehind "2+".toList [.number Constant.pi.value] ∧
      result negative = resultBehind [] [.number (-3)] ∧
      (cosine.toBits ≠ 0xBFF0000000000000 ∨
        result (sum ++ [.function (.trig .cos)]) = resultBehind "2+".toList [.number cosine]) := by
  intro result sum negative cosine
  have spliced {keys : List Key} {pending : Text} {value : Float}
      (reached : (start .radians false).pressAll keys =
        ⟨pending, displayText value, .radians, false⟩)
      (signed : value.toBits ≠ 0x8000000000000000) (unclosed : pending.getLast? ≠ some ')')
      (unsigned : pending ≠ ['-']) : result keys = resultBehind pending [.number value] := by
    have behind : ((start .radians false).pressAll keys).pending = pending := by rw [reached]
    have shown : ((start .radians false).pressAll keys).current = displayText value := by
      rw [reached]
    rw [← behind] at unclosed unsigned ⊢
    exact (evaluate_spliced .radians false keys shown signed fun both => unclosed both.2).2.1
      (.inr ⟨unclosed, unsigned⟩)
  refine ⟨spliced rfl (by decide) (by decide) (by decide), ?_, ?_⟩
  · have reached : (start .radians false).pressAll negative =
        ⟨[], displayText (-3), .radians, false⟩ := by decide +kernel
    exact spliced reached (by decide) (by decide) (by decide)
  · by_cases minusOne : cosine.toBits = 0xBFF0000000000000
    · right
      have signed : cosine.toBits ≠ 0x8000000000000000 := by
        rw [minusOne]
        decide
      exact spliced (pressAll_cos rfl) signed (by decide) (by decide)
    · left
      exact minusOne

/-- Evaluation takes a displayed number for one token. -/
def EvaluatesAsToken (calculator : Calculator) : Prop :=
  ∀ value, calculator.current = displayText value → value.toBits ≠ 0x8000000000000000 →
    ¬ (calculator.current = untouched ∧ calculator.pending.getLast? = some ')') →
    (calculator.press .evaluate).current = resultBehind calculator.pending [.number value]

/-- Behind a typed prefix the evaluation takes minus one, the displayed cosine of `π`, for two
tokens. -/
theorem EvaluatesAsToken.resultBehind_eq {keys : List Key} {pending : Text}
    (typed : (start .radians false).pressAll keys =
      ⟨pending, displayText Constant.pi.value, .radians, false⟩)
    (minusOne : (Float.cos Constant.pi.value).toBits = 0xBFF0000000000000)
    (token : ((start .radians false).pressAll
      (keys ++ [.function (.trig .cos)])).EvaluatesAsToken) :
    resultBehind pending [.minus, .number (-Float.cos Constant.pi.value)] =
      resultBehind pending [.number (Float.cos Constant.pi.value)] := by
  have minus := head?_displayText_cos minusOne
  have signed : (Float.cos Constant.pi.value).toBits ≠ 0x8000000000000000 := by
    rw [minusOne]
    decide
  have touched : displayText (Float.cos Constant.pi.value) ≠ untouched := by
    intro same
    rw [same] at minus
    cases minus
  have shape := (Shaped.start .radians false).pressAll (keys ++ [.function (.trig .cos)])
  rw [pressAll_cos typed] at token shape
  have result := token _ rfl signed fun both => touched both.1
  rw [shape.evaluate_displayed rfl signed fun both => touched both.1, if_pos minus] at result
  exact result

/-- With minus one as the cosine of `π`: behind `(2)` it is subtracted, where one token could not
stand, and behind `-` it is refused, where one token would be negated. -/
theorem not_evaluatesAsToken :
    let minusOne : Prop := (Float.cos Constant.pi.value).toBits = 0xBFF0000000000000
    ¬ (minusOne ∧ ((start .radians false).pressAll [.parenthesis '(', .digit '2', .parenthesis ')',
        .constant .pi, .function (.trig .cos)]).EvaluatesAsToken) ∧
      ¬ (minusOne ∧ ((start .radians false).pressAll [.operator '-',
        .constant .pi, .function (.trig .cos)]).EvaluatesAsToken) := by
  intro minusOne
  constructor
  · rintro ⟨cosine, token⟩
    let typed : List Key := [.parenthesis '(', .digit '2', .parenthesis ')', .constant .pi]
    have reached : (start .radians false).pressAll typed =
        ⟨"(2)".toList, displayText Constant.pi.value, .radians, false⟩ := rfl
    have shape := (Shaped.start .radians false).pressAll typed
    rw [reached] at shape
    have result := token.resultBehind_eq reached cosine
    have misplaced := resultBehind_of_closing shape.pending rfl (Float.cos Constant.pi.value)
    have difference := resultBehind_grouped (Decimal.literal ⟨2, 0⟩) (-Float.cos Constant.pi.value)
    exact displayText_ne_failure _ (difference.symm.trans (result.trans misplaced))
  · rintro ⟨cosine, token⟩
    let typed : List Key := [.operator '-', .constant .pi]
    have reached : (start .radians false).pressAll typed =
        ⟨['-'], displayText Constant.pi.value, .radians, false⟩ := rfl
    have result := token.resultBehind_eq reached cosine
    have refused := resultBehind_two_signs (-Float.cos Constant.pi.value)
    have negated := resultBehind_minus (Float.cos Constant.pi.value)
    exact displayText_ne_failure _ (negated.symm.trans (result.symm.trans refused))

end Calculator

end PocketCalc
