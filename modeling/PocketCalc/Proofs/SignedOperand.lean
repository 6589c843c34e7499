import PocketCalc.Proofs.Due
import PocketCalc.Proofs.Substitution

/-!
# Signed operands

The gap of a context is a place where an operand with its sign is due. A minus and a number are
therefore evaluated like the negative number wherever an operand with its sign is due, whatever
follows.
-/
namespace PocketCalc

open Grammar Pushdown

namespace Grammar

/-- The gap of a context is where an operand with its sign is due. -/
theorem Context.after_before (context : Context (.phrase .signed) (.phrase rank)) :
    Due.operand.after context.before = some .operand := by
  have finished (operand : Phrase .signed) :
      Due.operand.after (context.before ++ (operand.tokens ++ context.after)) = some .operator := by
    rw [← (context.fill operand).after_tokens]
    exact congrArg (Due.after .operand) (context.tokens_fill operand).symm
  -- A number or a minus may stand in the gap, and no other place takes both.
  have number := finished (.unsigned (.number 0))
  have minus := finished (.negated (.number 0))
  rw [Due.after_append] at number minus
  cases reached : Due.operand.after context.before with
  | none => simp [reached] at number
  | some due =>
    cases due with
    | operand => rfl
    | operator => simp [reached, Phrase.tokens, Due.next] at number
    | primary => simp [reached, Phrase.tokens, Due.next] at minus

end Grammar

namespace Evaluation

theorem after_of_evaluateTokens {tokens : List Token} {value : Float}
    (read : evaluateTokens tokens = .ok value) : Due.operand.after tokens = some .operator := by
  obtain ⟨tree, rfl, -, -⟩ := exists_tree_of_evaluateTokens read
  exact tree.after_tokens

/-- A minus before a number is its sign exactly where an operand with its sign is due: there the
two are evaluated like the negative number, whatever follows. -/
theorem evaluateTokens_sign {before back : List Token}
    (unfinished : Due.operand.after before ≠ some .operator)
    (unsigned : Due.operand.after before ≠ some .primary) (number value : Float) :
    evaluateTokens (before ++ .minus :: .number number :: back) = .ok value ↔
      evaluateTokens (before ++ .number (-number) :: back) = .ok value := by
  constructor
  · intro read
    have behind : evaluateTokens (before ++ [.minus] ++ .number number :: back) = .ok value := by
      rwa [← List.append_cons]
    obtain ⟨context, negative, split, rfl⟩ :=
      exists_context_of_evaluateTokens (.number number) behind
    cases negative with
    | true =>
      obtain rfl : before = context.before := by simpa [signTokens] using split
      have replaced := evaluateTokens_fill context (.negated (.number number))
        (.unsigned (.number (-number))) rfl read
      exact replaced.resolve_right fun deeper => Nat.lt_irrefl _ deeper.1
    | false =>
      -- Without a sign, the minus would be a subtraction behind a finished operand.
      have awaits := context.after_before
      have same : context.before = before ++ [.minus] := by simpa [signTokens] using split.symm
      rw [same, Due.after_append] at awaits
      cases reached : Due.operand.after before with
      | none =>
        rw [reached] at awaits
        cases awaits
      | some due =>
        rw [reached] at awaits
        cases due with
        | operand | primary => cases awaits
        | operator => exact absurd reached unfinished
  · intro read
    obtain ⟨context, negative, rfl, rfl⟩ :=
      exists_context_of_evaluateTokens (.number (-number)) read
    cases negative with
    | true =>
      rw [Due.after_append, context.after_before] at unsigned
      exact absurd rfl unsigned
    | false =>
      simp only [signTokens, Bool.false_eq_true, if_false, List.append_nil] at *
      have replaced := evaluateTokens_fill context (.unsigned (.number (-number)))
        (.negated (.number number)) rfl read
      exact replaced.resolve_right fun deeper => Nat.lt_irrefl _ deeper.1

end Evaluation

end PocketCalc
