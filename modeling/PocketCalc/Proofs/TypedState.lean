import PocketCalc.Proofs.Entry
import PocketCalc.Proofs.Keyable
import PocketCalc.Proofs.TokenCalculator

/-!
# States of typing

Typing a keyable expression leads the token calculator through states in which an operand is due
or complete, with the tokens typed so far. Each lexeme that may follow adds its token, so that at
the end the tokens of the expression are what would be evaluated.
-/
namespace PocketCalc

open Calculator (untouched)
open Pushdown (Due)

namespace TokenCalculator

theorem recover_of_ne {calculator : TokenCalculator}
    (usable : calculator.current ≠ Calculator.failure) : calculator.recover = calculator :=
  if_neg usable

theorem pressAll_operator {calculator : TokenCalculator} {character : Char} {token : Token}
    (known : Token.ofMark? character = some token) (operation : token.isOperation = true)
    (usable : calculator.current ≠ Calculator.failure) :
    calculator.pressAll (Lexeme.mark character token known).keys =
      calculator.insertOperator token := by
  have member := (mem_operators_iff known).mpr operation
  have pressed : calculator.pressAll [.operator character] =
      calculator.typeOperator character := rfl
  rw [Lexeme.keys, if_pos operation, pressed, typeOperator, Token.ofOperatorKey?, if_pos member,
    known]
  dsimp only
  rw [recover_of_ne usable]

theorem pressAll_parenthesis {calculator : TokenCalculator} {character : Char} {token : Token}
    (known : Token.ofMark? character = some token) (parenthesis : token.isOperation = false)
    (usable : calculator.current ≠ Calculator.failure) :
    calculator.pressAll (Lexeme.mark character token known).keys =
      calculator.insertParenthesis token := by
  have member : character = '(' ∨ character = ')' :=
    (parenthesis_of_ofMark? known parenthesis).imp And.left And.left
  have pressed : calculator.pressAll [.parenthesis character] =
      calculator.typeParenthesis character := rfl
  rw [Lexeme.keys, parenthesis, if_neg Bool.false_ne_true, pressed, typeParenthesis,
    Token.ofParenthesisKey?, if_pos member, known]
  dsimp only
  rw [recover_of_ne usable]

theorem press_digit {calculator : TokenCalculator} {character : Char}
    (numeric : isNumeric character = true) (usable : calculator.current ≠ Calculator.failure) :
    calculator.press (.digit character) =
      { calculator with current := enter calculator.current character } := by
  have edited : calculator.press (.digit character) = calculator.edit (.digit character) := rfl
  rw [edited, edit, Calculator.press_digit numeric usable]
  rfl

theorem pressAll_digits {calculator : TokenCalculator} {text : Text}
    (numeric : ∀ character ∈ text, isNumeric character = true)
    (usable : calculator.current ≠ Calculator.failure) :
    calculator.pressAll (text.map .digit) =
      { calculator with current := text.foldl enter calculator.current } := by
  induction text generalizing calculator with
  | nil => rfl
  | cons character text ih =>
    obtain ⟨first, others⟩ := List.forall_mem_cons.mp numeric
    rw [List.map_cons, pressAll, List.foldl_cons, press_digit first usable]
    exact ih others (enter_ne_failure first usable)

end TokenCalculator

/-- An operand is due after these tokens. -/
structure Awaits (calculator : TokenCalculator) (tokens : List Token) : Prop where
  committed : calculator.committed = some tokens
  current : calculator.current = untouched ∨ calculator.current = [] ∧ tokens = [.opening]
  unclosed : tokens.getLast? ≠ some .closing

/-- An operand is complete with these tokens. -/
structure Completes (calculator : TokenCalculator) (tokens : List Token) : Prop where
  line : calculator.line = some tokens
  usable : calculator.current ≠ Calculator.failure
  typed : calculator.current ≠ []
  kept : calculator.current = untouched → calculator.endsIn Token.isClosing = true

variable {calculator : TokenCalculator} {tokens : List Token}

namespace Awaits

theorem usable (h : Awaits calculator tokens) : calculator.current ≠ Calculator.failure := by
  rcases h.current with same | ⟨same, _⟩ <;> rw [same] <;> decide

theorem endsIn (h : Awaits calculator tokens) (kind : Token → Bool) :
    calculator.endsIn kind = tokens.getLast?.any kind := by
  rw [TokenCalculator.endsIn, h.committed]
  rfl

theorem endsIn_closing (h : Awaits calculator tokens) :
    calculator.endsIn Token.isClosing = false := by
  have unclosed := h.unclosed
  rw [h.endsIn]
  cases last : tokens.getLast? with
  | none => rfl
  | some token =>
    rw [last] at unclosed
    cases token <;> first | rfl | exact absurd rfl unclosed

/-- Nothing is pushed but the mark where no operand is typed. -/
theorem push (h : Awaits calculator tokens) {token : Token} (mark : token ≠ .closing)
    (untyped : calculator.current = untouched) :
    Awaits (calculator.push token) (tokens ++ [token]) where
  committed := by
    rw [TokenCalculator.push, h.committed]
    rfl
  current := Or.inl untyped
  unclosed := by
    rw [List.getLast?_concat]
    exact fun same => mark (Option.some.inj same)

theorem commit_push (h : Awaits calculator tokens) {token : Token} (mark : token ≠ .closing)
    (empty : calculator.current = []) :
    Awaits (calculator.commit.push token) (tokens ++ [token]) where
  committed := by
    have operand : calculator.operand = [] := by
      rw [TokenCalculator.operand, h.endsIn_closing, empty]
      rfl
    rw [TokenCalculator.push, TokenCalculator.commit, TokenCalculator.line, h.committed, operand,
      tokenize_nil]
    simp [Except.toOption]
  current := Or.inl rfl
  unclosed := by
    rw [List.getLast?_concat]
    exact fun same => mark (Option.some.inj same)

theorem opening (h : Awaits calculator tokens) :
    Awaits (calculator.insertParenthesis .opening) (tokens ++ [.opening]) := by
  unfold TokenCalculator.insertParenthesis
  rcases h.current with untyped | ⟨empty, _⟩
  · rw [if_pos untyped]
    split
    next fresh =>
      have none : tokens = [] := Option.some.inj (h.committed.symm.trans fresh)
      subst none
      exact ⟨rfl, Or.inr ⟨rfl, rfl⟩, by decide⟩
    · exact h.push (by decide) untyped
  · have typed : calculator.current ≠ untouched := by
      rw [empty]
      decide
    rw [if_neg typed]
    exact h.commit_push (by decide) empty

/-- A sign is pushed where it does not take the place of an operation. -/
theorem minus (h : Awaits calculator tokens)
    (apart : ∀ last, tokens.getLast? = some last → last.isOperation = false) :
    Awaits (calculator.insertOperator .minus) (tokens ++ [.minus]) := by
  have free : calculator.endsIn Token.isOperation = false := by
    rw [h.endsIn]
    cases last : tokens.getLast? with
    | none => rfl
    | some token => exact apart token last
  have closed := h.endsIn_closing
  unfold TokenCalculator.insertOperator
  rw [closed, free]
  rcases h.current with untyped | ⟨empty, alone⟩
  · simp only [untyped, Calculator.untouched_ne_nil, false_and, ne_eq, not_true_eq_false,
      Bool.false_eq_true, or_self, if_false]
    exact h.push (by decide) untyped
  · have some : calculator.committed ≠ some [] := by
      rw [h.committed, alone]
      rintro ⟨⟩
    have typed : calculator.current ≠ untouched := by
      rw [empty]
      decide
    rw [if_neg fun both => some both.2, if_pos (Or.inl typed)]
    exact h.commit_push (by decide) empty

/-- Typing a literal completes the operand. -/
theorem literal (h : Awaits calculator tokens) (literal : Literal) :
    (calculator.pressAll (literal.text.map .digit)).line =
        some (tokens ++ [.number literal.value]) ∧
      (literal.isBareZero = false →
        Completes (calculator.pressAll (literal.text.map .digit))
          (tokens ++ [.number literal.value])) := by
  obtain ⟨entered, same, value, kept⟩ := literal.exists_foldl_enter (h.current.imp id And.left)
  rw [TokenCalculator.pressAll_digits literal.isNumeric_of_mem_text h.usable, same]
  have line : { calculator with current := entered.text }.line =
      some (tokens ++ [.number literal.value]) := by
    have operand : { calculator with current := entered.text }.operand = entered.text := by
      have closed : { calculator with current := entered.text }.endsIn Token.isClosing = false :=
        h.endsIn_closing
      rw [TokenCalculator.operand, closed]
      simp
    rw [TokenCalculator.line, operand, entered.tokenize_text, value, h.committed]
    rfl
  refine ⟨line, fun bare => ⟨line, ?_, entered.text_ne_nil, ?_⟩⟩
  · intro failed
    have numeric := entered.isNumeric_of_mem_text 'E'
    rw [show entered.text = Calculator.failure from failed] at numeric
    exact absurd (numeric (by decide)) (by decide)
  · exact fun untyped => absurd untyped (kept bare)

end Awaits

namespace Completes

theorem operation (h : Completes calculator tokens) {token : Token}
    (operation : token.isOperation = true) :
    Awaits (calculator.insertOperator token) (tokens ++ [token]) := by
  have committed : calculator.current ≠ untouched ∨ calculator.endsIn Token.isClosing = true := by
    by_cases untyped : calculator.current = untouched
    · exact Or.inr (h.kept untyped)
    · exact Or.inl untyped
  rw [TokenCalculator.insertOperator, if_neg fun both => h.typed both.1, if_pos committed]
  refine ⟨?_, Or.inl rfl, ?_⟩
  · rw [TokenCalculator.push, TokenCalculator.commit, h.line]
    rfl
  · rw [List.getLast?_concat]
    rintro ⟨⟩
    cases operation

/-- A closing parenthesis completes an operand of its own. -/
theorem of_closing {tokens : List Token}
    (committed : calculator.committed = some (tokens ++ [.closing]))
    (untyped : calculator.current = untouched) : Completes calculator (tokens ++ [.closing]) := by
  have closed : calculator.endsIn Token.isClosing = true := by
    rw [TokenCalculator.endsIn, committed]
    simp [Token.isClosing]
  have operand : calculator.operand = [] := by
    rw [TokenCalculator.operand, if_pos ⟨untyped, closed⟩]
  refine ⟨?_, ?_, ?_, fun _ => closed⟩
  · rw [TokenCalculator.line, operand, committed, tokenize_nil]
    simp [Except.toOption]
  · rw [untyped]
    decide
  · rw [untyped]
    decide

theorem closing (h : Completes calculator tokens) :
    Completes (calculator.insertParenthesis .closing) (tokens ++ [.closing]) := by
  unfold TokenCalculator.insertParenthesis
  split
  next untyped =>
    have closed := h.kept untyped
    have some : calculator.committed ≠ some [] := by
      intro none
      rw [TokenCalculator.endsIn, none] at closed
      cases closed
    have operand : calculator.operand = [] := by
      rw [TokenCalculator.operand, if_pos ⟨untyped, closed⟩]
    have committed : calculator.committed = Option.some tokens := by
      rw [← h.line, TokenCalculator.line, operand, tokenize_nil]
      cases calculator.committed <;> simp [Except.toOption]
    rw [if_neg some]
    refine of_closing ?_ untyped
    rw [TokenCalculator.push, committed]
    rfl
  · refine of_closing ?_ rfl
    rw [TokenCalculator.push, TokenCalculator.commit, h.line]
    rfl

end Completes

/-- Where typing stands between two lexemes. -/
def Stands (calculator : TokenCalculator) (tokens : List Token) : Due → Prop
  | .operator => Completes calculator tokens
  | _ => Awaits calculator tokens

namespace Stands

variable {due : Due}

/-- A lexeme that may follow adds its token. -/
theorem press (h : Stands calculator tokens due) {lexeme : Lexeme} {next : Due}
    (followed : due.next lexeme.token = some next)
    (apart : ∀ last, tokens.getLast? = some last → lexeme.token = .minus →
      last.isOperation = false)
    (bare : lexeme.isBareZero = false) :
    Stands (calculator.pressAll lexeme.keys) (tokens ++ [lexeme.token]) next := by
  cases lexeme with
  | number literal =>
    cases due with
    | operator => cases followed
    | operand | primary =>
      cases followed
      exact (Awaits.literal h literal).2 bare
  | mark character token known =>
    by_cases operation : token.isOperation = true
    · cases due with
      | operand =>
        have usable := Awaits.usable h
        rw [TokenCalculator.pressAll_operator known operation usable]
        cases token <;> cases operation <;> cases followed
        exact Awaits.minus h fun last ending => apart last ending rfl
      | primary => cases token <;> cases operation <;> cases followed
      | operator =>
        have usable := Completes.usable h
        rw [TokenCalculator.pressAll_operator known operation usable]
        obtain rfl : next = .operand := by
          cases token <;> cases operation <;> cases followed <;> rfl
        exact Completes.operation h operation
    · have parenthesis : token.isOperation = false := Bool.eq_false_iff.mpr operation
      rcases parenthesis_of_ofMark? known parenthesis with ⟨_, rfl⟩ | ⟨_, rfl⟩
      · cases due with
        | operator => cases followed
        | operand | primary =>
          cases followed
          rw [TokenCalculator.pressAll_parenthesis known rfl (Awaits.usable h)]
          exact Awaits.opening h
      · cases due with
        | operand | primary => cases followed
        | operator =>
          cases followed
          rw [TokenCalculator.pressAll_parenthesis known rfl (Completes.usable h)]
          exact Completes.closing h

/-- What has been typed at the end is what would be evaluated. -/
theorem line_pressAll {lexemes : List Lexeme} (h : Stands calculator tokens due)
    (walk : due.after (lexemes.map Lexeme.token) = some .operator)
    (signs : SignsApart (tokens ++ lexemes.map Lexeme.token))
    (zeros : ∀ lexeme ∈ lexemes.dropLast, lexeme.isBareZero = false) :
    (calculator.pressAll (typing lexemes)).line =
      some (tokens ++ lexemes.map Lexeme.token) := by
  -- Every lexeme but the last leads to a state between lexemes. The last one may be a bare zero,
  -- which evaluates as it should but would not count as typed before another lexeme.
  induction lexemes generalizing calculator tokens due with
  | nil =>
    cases walk
    rw [List.map_nil, List.append_nil]
    exact Completes.line h
  | cons lexeme lexemes ih =>
    rw [List.map_cons, Due.after_cons] at walk
    obtain ⟨next, followed, walk⟩ := Option.bind_eq_some_iff.mp walk
    have apart (last : Token) (ending : tokens.getLast? = some last) :
        lexeme.token = .minus → last.isOperation = false :=
      signs.of_append ending rfl
    have split : calculator.pressAll (typing (lexeme :: lexemes)) =
        (calculator.pressAll lexeme.keys).pressAll (typing lexemes) := List.foldl_append
    rw [split]
    cases lexemes with
    | nil =>
      cases walk
      cases lexeme with
      | number literal =>
        cases due with
        | operator => cases followed
        | operand | primary => exact (Awaits.literal h literal).1
      | mark character token known => exact Completes.line (h.press followed apart rfl)
    | cons second others =>
      have bare := zeros lexeme List.mem_cons_self
      rw [List.map_cons, List.append_cons]
      refine ih (h.press followed apart bare) walk ?_ ?_
      · rw [← List.append_cons]
        exact signs
      · exact fun later member => zeros later (List.mem_cons_of_mem _ member)

end Stands

end PocketCalc
