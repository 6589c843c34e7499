import PocketCalc.Proofs.OperandReading
import PocketCalc.Proofs.SplicedOperand

/-!
# Ready displays

A display is ready if an evaluation could only fail for its parentheses. It is ready wherever every
mark and every operand stands where it is due. Nothing keeps the keys to that: a display is not
ready once a mark has been committed out of place, and while the operand is missing, is not
finished, or stands behind a closing parenthesis or with a second sign.
-/
namespace PocketCalc

open Calculator (untouched failure)
open Evaluation (nestingLimit evaluateTokens)
open Grammar (signTokens)
open Pushdown (Due)

/-- The errors that are about parentheses: one is unmatched, or they nest too deep. -/
inductive Unbalanced : ExpressionError → Prop
  | unmatched : Unbalanced .unmatchedParenthesis
  | deep : Unbalanced (.tooDeep nestingLimit)

/-- What an evaluation makes of the display. -/
def Calculator.outcome (calculator : Calculator) : Except ExpressionError Float :=
  PocketCalc.evaluate (calculator.pending ++ calculator.operand)

/-- Whether an evaluation succeeds, or fails for its parentheses only. -/
def Ready (outcome : Except ExpressionError Float) : Prop :=
  ∀ error, outcome = .error error → Unbalanced error

namespace Pushdown
variable {state later : State} {token : Token} {tokens : List Token} {error : ExpressionError}

/-- Where a token is due it is refused for the parentheses only. -/
theorem step_of_next {due : Due} (h : state.due.next token = some due) :
    (∃ later, step state token = .ok later ∧ later.due = due) ∨
      ∃ error, step state token = .error error ∧ Unbalanced error := by
  obtain ⟨due, depth, base, saved⟩ := state
  have deep (full : depth = nestingLimit) {other : Except ExpressionError State} :
      (if depth = nestingLimit then .error (.tooDeep nestingLimit) else other) =
        .error (.tooDeep nestingLimit) := if_pos full
  cases due <;> cases token <;> cases h
  case operand.opening | primary.opening | operator.power =>
    by_cases full : depth = nestingLimit
    · exact .inr ⟨_, deep full, .deep⟩
    · exact .inl ⟨_, if_neg full, rfl⟩
  case operator.closing =>
    cases saved with
    | nil => exact .inr ⟨_, rfl, .unmatched⟩
    | cons around saved => exact .inl ⟨_, rfl, rfl⟩
  all_goals exact .inl ⟨_, rfl, rfl⟩

theorem step_of_misplaced (h : state.due.next token = none) :
    ∃ found expected, step state token = .error (.unexpectedToken found expected) := by
  obtain ⟨due, depth, base, saved⟩ := state
  cases due <;> cases token <;> first | exact ⟨_, _, rfl⟩ | cases h

/-- Tokens that all stand where they are due are refused for the parentheses only. -/
theorem advance_of_after (state : State) {due : Due} (h : state.due.after tokens = some due) :
    (∃ later, advance state tokens = .ok later ∧ later.due = due) ∨
      ∃ error, advance state tokens = .error error ∧ Unbalanced error := by
  induction tokens generalizing state with
  | nil =>
    cases h
    exact .inl ⟨state, rfl, rfl⟩
  | cons token tokens ih =>
    rw [Due.after_cons] at h
    obtain ⟨between, next, rest⟩ := Option.bind_eq_some_iff.mp h
    rw [advance_cons]
    rcases step_of_next next with ⟨later, stepped, rfl⟩ | ⟨error, refused, unbalanced⟩
    · rw [stepped]
      exact ih later rest
    · rw [refused]
      exact .inr ⟨error, rfl, unbalanced⟩

theorem advance_of_misplaced (state : State) (h : state.due.after tokens = none) :
    ∃ error, advance state tokens = .error error ∧
      (Unbalanced error ∨ ∃ found expected, error = .unexpectedToken found expected) := by
  induction tokens generalizing state with
  | nil => cases h
  | cons token tokens ih =>
    rw [Due.after_cons] at h
    rw [advance_cons]
    cases next : state.due.next token with
    | none =>
      obtain ⟨found, expected, refused⟩ := step_of_misplaced next
      rw [refused]
      exact ⟨_, rfl, .inr ⟨found, expected, rfl⟩⟩
    | some due =>
      rw [next] at h
      rcases step_of_next next with ⟨later, stepped, rfl⟩ | ⟨error, refused, unbalanced⟩
      · rw [stepped]
        exact ih later h
      · rw [refused]
        exact ⟨error, rfl, .inl unbalanced⟩

/-- The errors of an evaluation are those of the scan. -/
theorem evaluateTokens_eq_error_iff (tokens : List Token) (error : ExpressionError) :
    evaluateTokens tokens = .error error ↔ (advance start tokens).bind finish = .error error := by
  rw [← map_evaluateTokens]
  cases evaluateTokens tokens <;> simp [Except.map]

theorem unbalanced_finish_iff (state : State) :
    (∀ error, finish state = .error error → Unbalanced error) ↔ state.due = .operator := by
  obtain ⟨due, depth, base, saved⟩ := state
  cases due with
  | operand | primary =>
    constructor
    · intro ready
      cases ready _ rfl
    · rintro ⟨⟩
  | operator =>
    refine ⟨fun _ => rfl, ?_⟩
    intro _ error failed
    unfold finish at failed
    dsimp only at failed
    split at failed
    · cases failed
    · cases failed
      exact .unmatched

/-- Tokens are ready if an operator is due behind them, or if the scan stops at a parenthesis or at
the limit of nesting before it meets a token out of place. -/
theorem ready_iff (tokens : List Token) :
    Ready (evaluateTokens tokens) ↔ Due.operand.after tokens = some .operator ∨
      ∃ error, advance start tokens = .error error ∧ Unbalanced error := by
  have scanned : Ready (evaluateTokens tokens) ↔
      ∀ error, (advance start tokens).bind finish = .error error → Unbalanced error := by
    simp only [Ready, evaluateTokens_eq_error_iff]
  rw [scanned]
  cases placed : Due.operand.after tokens with
  | some due =>
    rcases advance_of_after start placed with ⟨later, reached, rfl⟩ |
      ⟨error, refused, unbalanced⟩
    · rw [reached]
      simpa [Except.bind] using unbalanced_finish_iff later
    · rw [refused]
      constructor
      · intro _
        exact .inr ⟨error, rfl, unbalanced⟩
      · rintro _ _ ⟨⟩
        exact unbalanced
  | none =>
    obtain ⟨error, refused, -⟩ := advance_of_misplaced start placed
    rw [refused]
    constructor
    · intro ready
      exact .inr ⟨error, rfl, ready error rfl⟩
    · intro stopped other same
      rcases stopped with misplaced | ⟨_, same', unbalanced⟩
      · cases misplaced
      · cases same'
        cases same
        exact unbalanced

/-- What an evaluation of tokens can fail with. -/
inductive Refusal (tokens : List Token) : ExpressionError → Prop
  | unbalanced {error : ExpressionError} (h : Unbalanced error) : Refusal tokens error
  | misplaced {found expected : Text} : Refusal tokens (.unexpectedToken found expected)
  | ended {due : Due} (placed : Due.operand.after tokens = some due)
      (unfinished : due ≠ .operator) : Refusal tokens .unexpectedEnd

theorem refusal_of_evaluateTokens (failed : evaluateTokens tokens = .error error) :
    Refusal tokens error := by
  rw [evaluateTokens_eq_error_iff] at failed
  cases placed : Due.operand.after tokens with
  | none =>
    obtain ⟨other, refused, kind⟩ := advance_of_misplaced start placed
    rw [refused] at failed
    cases failed
    rcases kind with unbalanced | ⟨found, expected, rfl⟩
    · exact .unbalanced unbalanced
    · exact .misplaced
  | some due =>
    rcases advance_of_after start placed with ⟨later, reached, rfl⟩ |
      ⟨other, refused, unbalanced⟩
    · rw [reached] at failed
      by_cases finished : later.due = .operator
      · exact .unbalanced ((unbalanced_finish_iff later).mpr finished error failed)
      · obtain ⟨due, depth, base, saved⟩ := later
        cases due with
        | operator => exact absurd rfl finished
        | operand | primary =>
          cases failed
          exact .ended placed finished
    · rw [refused] at failed
      cases failed
      exact .unbalanced unbalanced

end Pushdown

/-- A number that is written out, without its sign. -/
def Finished (text : Text) : Prop :=
  (∃ literal : Literal, literal.text = text) ∨ ∃ word : NumberWord, word.text = text

/-- Whether every operand and every mark of a committed text stands where it is due. -/
def Placed (pending : Text) : Prop :=
  ∃ tokens due, tokenize pending = .ok tokens ∧ Due.operand.after tokens = some due

/-- The operands that may stand behind a committed text. -/
inductive Fits (pending : Text) : Text → Prop
  | nothing (closed : pending.getLast? = some ')') : Fits pending []
  | number (negative : Bool) {text : Text} (finished : Finished text)
      (subtracted : pending.getLast? = some ')' → negative = true)
      (single : pending = ['-'] ∨ ['(', '-'] <:+ pending → negative = false) :
      Fits pending (Spelling.sign negative ++ text)

/-- Whether a text is refused for its parentheses, whatever is at fault behind them. -/
def Stopped (text : Text) : Prop :=
  ∃ tokens error, tokenize text = .ok tokens ∧
    Pushdown.advance Pushdown.start tokens = .error error ∧ Unbalanced error

theorem Finished.tokenize {text : Text} (h : Finished text) :
    ∃ value, PocketCalc.tokenize text = .ok [.number value] := by
  rcases h with ⟨literal, rfl⟩ | ⟨word, rfl⟩
  · exact ⟨literal.value, literal.tokenize_text⟩
  · refine ⟨word.value, ?_⟩
    rw [tokenize_letters word.text_ne_nil word.shown_text word.all_isLetter_text,
      word.wordValue?_text]

/-- What the tokenizer makes of an operand. -/
inductive OperandTokens (text : Text) : Prop
  | number (negative : Bool) {body : Text} {value : Float} (spelled : text = Spelling.sign negative ++ body)
      (finished : Finished body) (read : tokenize text = .ok (signTokens negative ++ [.number value]))
  | twoNumbers (negative : Bool) {first second : Float}
      (read : tokenize text = .ok (signTokens negative ++ [.number first, .number second]))
  | point (refused : tokenize text = .error (.invalidNumber ['.']))
  | word {word : Text} (begun : word ∈ wordBeginnings) (unfinished : wordValue? word = none)
      (refused : tokenize text = .error (.unrecognizedToken word))

theorem OperandForm.tokens {text : Text} (h : OperandForm text) : OperandTokens text := by
  cases h with
  | @figures negative text typed figures =>
    rcases eq_point_or_exists_literal typed figures with rfl | ⟨literal, rfl⟩
    · apply OperandTokens.point
      rw [tokenize_signTokens, tokenize_point]
      rfl
    · have read := tokenize_signTokens negative literal.text
      rw [literal.tokenize_text] at read
      exact .number negative rfl (.inl ⟨literal, rfl⟩) read
  | @word word front text known beginning typed unsigned figures =>
    obtain ⟨negative, letters, begun, rfl⟩ := exists_of_beginning known beginning typed unsigned
    have read := tokenize_signTokens negative (letters ++ text)
    rw [tokenize_beginning begun figures] at read
    rw [List.append_assoc]
    cases value : wordValue? letters with
    | none =>
      rw [value] at read
      exact .word begun value read
    | some value' =>
      rw [value] at read
      by_cases whole : text = []
      · subst whole
        obtain ⟨word, spelled, -⟩ := wordValue?_eq_some value
        rw [tokenize_nil] at read
        apply OperandTokens.number negative rfl (.inr ⟨word, _⟩) read
        simpa using spelled
      · rcases eq_point_or_exists_literal whole figures with rfl | ⟨literal, rfl⟩
        · rw [tokenize_point] at read
          exact .point read
        · rw [literal.tokenize_text] at read
          exact .twoNumbers negative read

theorem Pushdown.Due.after_signed_number (due : Due) (negative : Bool) (value : Float) :
    due.after (signTokens negative ++ [.number value]) = some .operator ↔
      (due = .operator → negative = true) ∧ (due = .primary → negative = false) := by
  cases due <;> cases negative <;> simp [signTokens, Due.next]

namespace Segmented
variable {pending : Text} {tokens : List Token} {due : Due}

theorem closed_iff (h : Segmented pending) (read : tokenize pending = .ok tokens)
    (placed : Due.operand.after tokens = some due) :
    due = .operator ↔ pending.getLast? = some ')' := by
  constructor
  · rintro rfl
    exact h.getLast?_of_finished read placed
  · intro closed
    apply (Due.after_eq_operator_iff placed).mpr
    rw [h.committed.getLast?_tokens read, (lastMark?_eq_closing_iff pending).mpr closed]
    rfl

/-- A sign awaits its number behind a minus that is alone or behind an opening parenthesis. -/
theorem signed_iff (h : Segmented pending) (read : tokenize pending = .ok tokens)
    (placed : Due.operand.after tokens = some due) :
    due = .primary ↔ pending = ['-'] ∨ ['(', '-'] <:+ pending := by
  constructor
  · rintro rfl
    exact h.eq_of_signed read placed
  · rintro (rfl | opened)
    · rw [tokenize_minus] at read
      cases read
      cases placed
      rfl
    · obtain ⟨front, rfl⟩ := exists_tokens_of_opened opened read
      rw [Due.after_append] at placed
      obtain ⟨between, -, placed⟩ := Option.bind_eq_some_iff.mp placed
      cases between with
      | operator => cases placed
      | operand | primary =>
        cases placed
        rfl

end Segmented

/-- The faults that a committed text can have: a lone point, and what is left of a word. -/
inductive OperandFault : ExpressionError → Prop
  | point : OperandFault (.invalidNumber ['.'])
  | word {word : Text} (begun : word ∈ wordBeginnings) (unfinished : wordValue? word = none) :
      OperandFault (.unrecognizedToken word)

theorem OperandForm.fault {text : Text} (h : OperandForm text) {error : ExpressionError}
    (failed : tokenize text = .error error) : OperandFault error := by
  rcases h.tokens with ⟨negative, -, -, read⟩ | ⟨negative, read⟩ | refused |
    ⟨begun, unfinished, refused⟩
  · rw [read] at failed
    cases failed
  · rw [read] at failed
    cases failed
  · rw [refused] at failed
    cases failed
    exact .point
  · rw [refused] at failed
    cases failed
    exact .word begun unfinished

theorem joinTokens_error {front back : Except ExpressionError (List Token)}
    {error : ExpressionError} (failed : joinTokens front back = .error error) :
    front = .error error ∨ back = .error error := by
  cases front with
  | error other => exact .inl failed
  | ok tokens =>
    cases back with
    | error other => exact .inr failed
    | ok others => cases failed

theorem Segmented.fault {pending : Text} (h : Segmented pending) {error : ExpressionError}
    (failed : tokenize pending = .error error) : OperandFault error := by
  induction h with
  | nothing =>
    rw [tokenize_nil] at failed
    cases failed
  | mark before known apart ih =>
    obtain ⟨token, -, whole⟩ := (before.mark known apart).committed.tokenize_concat
    rw [whole] at failed
    rcases joinTokens_error failed with first | last
    · exact ih first
    · cases last
  | operand before form touched known ih =>
    obtain ⟨token, -, whole⟩ := (before.operand form touched known).committed.tokenize_concat
    rw [whole, before.committed.tokenize_append form.form.shown] at failed
    rcases joinTokens_error failed with both | last
    · rcases joinTokens_error both with first | second
      · exact ih first
      · exact form.form.fault second
    · cases last

namespace Fits
variable {pending operand : Text} {before : List Token} {due : Due}

theorem tokenize (f : Fits pending operand) : ∃ tokens, PocketCalc.tokenize operand = .ok tokens := by
  cases f with
  | nothing => exact ⟨[], tokenize_nil⟩
  | number negative finished =>
    obtain ⟨value, read⟩ := finished.tokenize
    refine ⟨signTokens negative ++ [.number value], ?_⟩
    rw [tokenize_signTokens, read]
    rfl

/-- An operand that fits is finished wherever it is due. -/
theorem after (f : Fits pending operand) (h : Segmented pending)
    (read : PocketCalc.tokenize pending = .ok before)
    (placed : Due.operand.after before = some due) {tokens : List Token}
    (scanned : PocketCalc.tokenize operand = .ok tokens) : due.after tokens = some .operator := by
  cases f with
  | nothing closed =>
    rw [tokenize_nil] at scanned
    cases scanned
    rw [(h.closed_iff read placed).mpr closed]
    rfl
  | number negative finished subtracted single =>
    obtain ⟨value, number⟩ := finished.tokenize
    rw [tokenize_signTokens, number] at scanned
    cases scanned
    apply (due.after_signed_number negative value).mpr
    constructor
    · intro finished
      exact subtracted ((h.closed_iff read placed).mp finished)
    · intro signed
      exact single ((h.signed_iff read placed).mp signed)

/-- Only an operand that fits is finished where it is due. -/
theorem of_after (h : Segmented pending) (read : PocketCalc.tokenize pending = .ok before)
    (placed : Due.operand.after before = some due) (form : operand = [] ∨ OperandForm operand)
    {tokens : List Token} (scanned : PocketCalc.tokenize operand = .ok tokens)
    (finished : due.after tokens = some .operator) : Fits pending operand := by
  rcases form with rfl | form
  · rw [tokenize_nil] at scanned
    cases scanned
    obtain rfl : due = .operator := Option.some.inj finished
    exact .nothing ((h.closed_iff read placed).mp rfl)
  · rcases form.tokens with ⟨negative, rfl, whole, number⟩ | ⟨negative, numbers⟩ | refused |
      ⟨begun, unfinished, refused⟩
    · rw [number] at scanned
      cases scanned
      obtain ⟨subtracted, single⟩ := (due.after_signed_number negative _).mp finished
      apply Fits.number negative whole
      · intro closed
        exact subtracted ((h.closed_iff read placed).mpr closed)
      · intro signed
        exact single ((h.signed_iff read placed).mpr signed)
    · rw [numbers] at scanned
      cases scanned
      cases due <;> cases negative <;> simp [signTokens, Due.next] at finished
    · rw [refused] at scanned
      cases scanned
    · rw [refused] at scanned
      cases scanned

end Fits

namespace Shaped
variable {calculator : Calculator}

theorem operand_cases (h : Shaped calculator) :
    calculator.operand = [] ∨ OperandForm calculator.operand ∨ calculator.operand = failure := by
  unfold Calculator.operand
  split
  · exact .inl rfl
  · rcases h.current with failed | empty | operand
    · exact .inr (.inr failed)
    · exact .inl empty
    · exact .inr (.inl operand.form)

theorem shown_operand (h : Shaped calculator) : Shown calculator.operand := by
  rcases h.operand_cases with empty | form | failed
  · rw [empty]
    exact nofun
  · exact form.shown
  · rw [failed]
    exact Calculator.shown_failure

theorem tokenize (h : Shaped calculator) :
    PocketCalc.tokenize (calculator.pending ++ calculator.operand) =
      joinTokens (PocketCalc.tokenize calculator.pending)
        (PocketCalc.tokenize calculator.operand) :=
  h.pending.committed.tokenize_append h.shown_operand

theorem fault (h : Shaped calculator) {error : ExpressionError}
    (failed : PocketCalc.tokenize (calculator.pending ++ calculator.operand) = .error error) :
    OperandFault error ∨ error = .unrecognizedToken Calculator.failure := by
  rw [h.tokenize] at failed
  rcases joinTokens_error failed with first | second
  · exact .inl (h.pending.fault first)
  · rcases h.operand_cases with empty | form | failed
    · rw [empty, tokenize_nil] at second
      cases second
    · exact .inl (form.fault second)
    · rw [failed, Calculator.tokenize_failure] at second
      cases second
      exact .inr rfl

/-- A display is ready if all parts of it stand where they are due, or if it is refused for its
parentheses first. -/
theorem ready_iff (h : Shaped calculator) :
    Ready calculator.outcome ↔
      Placed calculator.pending ∧ Fits calculator.pending calculator.operand ∨
        Stopped (calculator.pending ++ calculator.operand) := by
  unfold Calculator.outcome PocketCalc.evaluate
  cases whole : PocketCalc.tokenize (calculator.pending ++ calculator.operand) with
  | error error =>
    have apart : ¬ Unbalanced error := by
      rintro unbalanced
      cases unbalanced <;> rcases h.fault whole with fault | same
      all_goals first | cases fault | cases same
    constructor
    · intro ready
      exact absurd (ready error rfl) apart
    · rintro (⟨⟨before, due, read, -⟩, fits⟩ | ⟨tokens, error, read, -⟩)
      · obtain ⟨tokens, scanned⟩ := fits.tokenize
        rw [h.tokenize, read, scanned] at whole
        cases whole
      · rw [whole] at read
        cases read
  | ok tokens =>
    show Ready (evaluateTokens tokens) ↔ _
    rw [Pushdown.ready_iff]
    have parts := whole
    rw [h.tokenize] at parts
    obtain ⟨before, read, rest⟩ := Evaluation.bind_ok parts
    obtain ⟨behind, scanned, rfl⟩ := Evaluation.map_ok rest
    rw [Due.after_append]
    constructor
    · rintro (finished | stopped)
      · left
        obtain ⟨due, placed, finished⟩ := Option.bind_eq_some_iff.mp finished
        refine ⟨⟨before, due, read, placed⟩, ?_⟩
        apply Fits.of_after h.pending read placed _ scanned finished
        rcases h.operand_cases with empty | form | failed
        · exact .inl empty
        · exact .inr form
        · rw [failed, Calculator.tokenize_failure] at scanned
          cases scanned
      · right
        obtain ⟨error, refused, unbalanced⟩ := stopped
        exact ⟨_, error, whole, refused, unbalanced⟩
    · rintro (⟨⟨before', due, read', placed⟩, fits⟩ | ⟨tokens, error, read', refused, unbalanced⟩)
      · left
        rw [read] at read'
        cases read'
        rw [placed]
        exact fits.after h.pending read placed scanned
      · right
        rw [whole] at read'
        cases read'
        exact ⟨error, refused, unbalanced⟩

theorem cases_of_evaluate (h : Shaped calculator) {error : ExpressionError}
    (failed : calculator.outcome = .error error) :
    (OperandFault error ∨ error = .unrecognizedToken Calculator.failure) ∨
      ∃ tokens, PocketCalc.tokenize (calculator.pending ++ calculator.operand) = .ok tokens ∧
        Pushdown.Refusal tokens error := by
  unfold Calculator.outcome PocketCalc.evaluate at failed
  split at failed
  next other whole =>
    cases failed
    exact .inl (h.fault whole)
  next tokens whole => exact .inr ⟨tokens, whole, Pushdown.refusal_of_evaluateTokens failed⟩

/-- An evaluation runs out of tokens only behind a first parenthesis. -/
theorem unexpectedEnd_iff (h : Shaped calculator) :
    calculator.outcome = .error .unexpectedEnd ↔
      calculator.pending = ['('] ∧ calculator.current = [] := by
  constructor
  · intro failed
    rcases h.cases_of_evaluate failed with (fault | same) | ⟨tokens, whole, unbalanced | _ |
      ⟨placed, unfinished⟩⟩
    · cases fault
    · cases same
    · cases unbalanced
    rw [h.tokenize] at whole
    obtain ⟨before, read, rest⟩ := Evaluation.bind_ok whole
    obtain ⟨behind, scanned, rfl⟩ := Evaluation.map_ok rest
    have last := mt (Due.after_eq_operator_iff placed).mpr unfinished
    rcases h.operand_cases with empty | form | failure
    · rw [empty, tokenize_nil] at scanned
      cases scanned
      rw [List.append_nil, h.pending.committed.getLast?_tokens read] at last
      have opened : calculator.pending.getLast? ≠ some ')' := by
        intro closed
        rw [(lastMark?_eq_closing_iff _).mpr closed] at last
        exact last rfl
      rw [Calculator.operand, if_neg fun placeholder => opened placeholder.2] at empty
      refine ⟨(h.opened empty).resolve_right ?_, empty⟩
      intro closed
      rw [closed] at opened
      exact opened rfl
    · have number := form.tokenize_getLast? scanned
      obtain ⟨token, ending, number⟩ := (Option.any_eq_true _ _).mp
        (any_getLast?_append before number)
      rw [ending] at last
      simp [number] at last
    · rw [failure, Calculator.tokenize_failure] at scanned
      cases scanned
  · rintro ⟨opened, empty⟩
    have operand : calculator.operand = [] := by
      unfold Calculator.operand
      split
      · rfl
      · exact empty
    have opening : Token.ofMark? '(' = some .opening := rfl
    have read : PocketCalc.tokenize ['('] = .ok [.opening] := by
      rw [tokenize_mark_start opening (by simp), tokenize_nil]
      rfl
    rw [Calculator.outcome, opened, operand, List.append_nil, PocketCalc.evaluate, read]
    exact (Pushdown.evaluateTokens_eq_error_iff _ _).mpr rfl

end Shaped

/-- In every state that can be reached, the display is ready exactly if each part of it stands where
it is due, but for what comes behind a fault of the parentheses. Where it is not ready, the
evaluation meets a token out of place, a lone point or what is left of a word, or ends behind a
first parenthesis. -/
theorem Calculator.outcome_ready_iff (angleMode : AngleMode) (inverse : Bool) (keys : List Key) :
    let calculator := (Calculator.start angleMode inverse).pressAll keys
    (Ready calculator.outcome ↔
        Placed calculator.pending ∧ Fits calculator.pending calculator.operand ∨
          Stopped (calculator.pending ++ calculator.operand)) ∧
      (calculator.outcome = .error .unexpectedEnd ↔
        calculator.pending = ['('] ∧ calculator.current = []) ∧
      (∀ text, calculator.outcome = .error (.invalidNumber text) → text = ['.']) ∧
      (∀ word, calculator.outcome = .error (.unrecognizedToken word) →
        word = Calculator.failure ∨
          word ∈ wordBeginnings ∧ word ≠ "Infinity".toList ∧ word ≠ "NaN".toList) ∧
      ∀ found, calculator.outcome ≠ .error (.trailingInput found) := by
  intro calculator
  have h : Shaped calculator := (Shaped.start angleMode inverse).pressAll keys
  refine ⟨h.ready_iff, h.unexpectedEnd_iff, ?_, ?_, ?_⟩
  · intro text failed
    rcases h.cases_of_evaluate failed with (fault | same) | ⟨tokens, -, refusal⟩
    · cases fault
      rfl
    · cases same
    · cases refusal with
      | unbalanced unbalanced => cases unbalanced
  · intro word failed
    rcases h.cases_of_evaluate failed with (fault | same) | ⟨tokens, -, refusal⟩
    · cases fault with
      | word begun unfinished => exact .inr ⟨begun, (wordValue?_eq_none_iff word).mp unfinished⟩
    · cases same
      exact .inl rfl
    · cases refusal with
      | unbalanced unbalanced => cases unbalanced
  · intro found failed
    rcases h.cases_of_evaluate failed with (fault | same) | ⟨tokens, -, refusal⟩
    · cases fault
    · cases same
    · cases refusal with
      | unbalanced unbalanced => cases unbalanced

/-- Keys that leave the display unready: a leading operator, a first parenthesis, a lone point behind
one, and a deletion from a displayed infinity. -/
theorem Calculator.unready_displays :
    let leading := (Calculator.start .radians false).pressAll [.operator '+', .digit '5']
    let opened := (Calculator.start .radians false).pressAll [.parenthesis '(']
    let pointed := (Calculator.start .radians false).pressAll [.parenthesis '(', .digit '.']
    let shortened := (Calculator.start .radians false).pressAll
      [.digit '1', .operator '/', .digit '0', .evaluate, .delete]
    leading.current ≠ Calculator.failure ∧
      leading.outcome = .error (.unexpectedToken "Plus".toList "number".toList) ∧
    opened.current ≠ Calculator.failure ∧ opened.outcome = .error .unexpectedEnd ∧
    pointed.current ≠ Calculator.failure ∧ pointed.outcome = .error (.invalidNumber ['.']) ∧
    shortened.current ≠ Calculator.failure ∧
      shortened.outcome = .error (.unrecognizedToken "Infinit".toList) := by
  intro leading opened pointed shortened
  have first : leading = ⟨['+'], ['5'], .radians, false⟩ := rfl
  have second : opened = ⟨['('], [], .radians, false⟩ := rfl
  have third : pointed = ⟨['('], ['.'], .radians, false⟩ := rfl
  have fourth : shortened = ⟨[], "Infinit".toList, .radians, false⟩ := by
    have shown := Calculator.pressAll_divisionByZero false .radians false
    rw [displayText_infinity] at shown
    exact congrArg (Calculator.press · .delete) shown
  rw [first, second, third, fourth]
  refine ⟨by decide, ?_, by decide, ?_, by decide, ?_, by decide, ?_⟩
  · let five : Literal := ⟨['5'], none, by decide, by decide⟩
    have plus : Token.ofMark? '+' = some .plus := rfl
    have read : PocketCalc.tokenize ['+', '5'] = .ok [.plus, .number five.value] := by
      rw [tokenize_mark_start plus (by simp)]
      show (PocketCalc.tokenize five.text).map _ = _
      rw [five.tokenize_text]
      rfl
    show PocketCalc.evaluate ['+', '5'] = _
    rw [PocketCalc.evaluate, read]
    exact (Pushdown.evaluateTokens_eq_error_iff _ _).mpr rfl
  · rw [← second]
    exact ((Shaped.start .radians false).pressAll [.parenthesis '(']).unexpectedEnd_iff.mpr
      ⟨rfl, rfl⟩
  · have opening : Token.ofMark? '(' = some .opening := rfl
    have read : PocketCalc.tokenize ['(', '.'] = .error (.invalidNumber ['.']) := by
      rw [tokenize_mark_start opening (by simp), tokenize_point]
      rfl
    show PocketCalc.evaluate ['(', '.'] = _
    rw [PocketCalc.evaluate, read]
  · have read : PocketCalc.tokenize "Infinit".toList = .error (.unrecognizedToken _) :=
      tokenize_letters (by decide) (by decide) (by decide)
    show PocketCalc.evaluate "Infinit".toList = _
    rw [PocketCalc.evaluate, read]

end PocketCalc
