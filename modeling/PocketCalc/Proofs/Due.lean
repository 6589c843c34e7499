import PocketCalc.Proofs.Mark
import PocketCalc.Proofs.Pushdown

/-!
# What is due

Along the tokens of a sentence an operand with its sign, an operand without one, or an operator is
due. A token that may not stand where it is ends the walk. A phrase leads from where an operand
with its sign is due to where an operator is, at whatever depth of parentheses.
-/
namespace PocketCalc

open Pushdown (Due)

/-- What is due after a token, for a token that may stand there. -/
def Pushdown.Due.next : Due → Token → Option Due
  | .operator, .number _ | .operator, .opening => none
  | .operator, .closing => some .operator
  | .operator, _ => some .operand
  | .operand, .minus => some .primary
  | _, .number _ => some .operator
  | _, .opening => some .operand
  | _, _ => none

def Pushdown.Due.after (due : Due) (tokens : List Token) : Option Due :=
  tokens.foldlM Due.next due

namespace Pushdown.Due

@[simp] theorem after_nil (due : Due) : due.after [] = some due := rfl

@[simp] theorem after_cons (due : Due) (token : Token) (tokens : List Token) :
    due.after (token :: tokens) = (due.next token).bind fun later => later.after tokens :=
  List.foldlM_cons

@[simp] theorem after_append (due : Due) (front back : List Token) :
    due.after (front ++ back) = (due.after front).bind fun later => later.after back :=
  List.foldlM_append

theorem next_eq_operator_iff {due later : Due} {token : Token} (h : due.next token = some later) :
    later = .operator ↔ (token.isNumber || token.isClosing) = true := by
  cases due <;> cases token <;> cases h <;> simp [Token.isNumber, Token.isClosing]

theorem of_next_eq_primary {due : Due} {token : Token} (h : due.next token = some .primary) :
    due = .operand ∧ token = .minus := by
  cases due <;> cases token <;> cases h
  exact ⟨rfl, rfl⟩

theorem exists_of_after_concat {due later : Due} {front : List Token} {token : Token}
    (h : due.after (front ++ [token]) = some later) :
    ∃ between, due.after front = some between ∧ between.next token = some later := by
  rw [after_append] at h
  obtain ⟨between, reached, stepped⟩ := Option.bind_eq_some_iff.mp h
  refine ⟨between, reached, ?_⟩
  rw [← stepped, after_cons]
  cases between.next token <;> rfl

/-- An operand is finished behind a number or a closing parenthesis only. -/
theorem after_eq_operator_iff {tokens : List Token} {later : Due}
    (h : Due.operand.after tokens = some later) :
    later = .operator ↔
      tokens.getLast?.any (fun last => last.isNumber || last.isClosing) = true := by
  rcases List.eq_nil_or_concat tokens with rfl | ⟨front, token, rfl⟩
  · cases h
    decide
  · rw [List.concat_eq_append] at *
    obtain ⟨between, -, stepped⟩ := exists_of_after_concat h
    simpa using next_eq_operator_iff stepped

theorem exists_of_after_primary {tokens : List Token}
    (h : Due.operand.after tokens = some .primary) :
    ∃ front, tokens = front ++ [.minus] ∧ Due.operand.after front = some .operand := by
  rcases List.eq_nil_or_concat tokens with rfl | ⟨front, token, rfl⟩
  · cases h
  · rw [List.concat_eq_append] at *
    obtain ⟨between, reached, stepped⟩ := exists_of_after_concat h
    obtain ⟨rfl, rfl⟩ := of_next_eq_primary stepped
    exact ⟨front, rfl, reached⟩

end Pushdown.Due

namespace Grammar

theorem Operation.next_token (operation : Operation level) :
    Due.operator.next operation.token = some .operand := by
  cases operation <;> rfl

mutual

/-- After a phrase an operator is due. -/
theorem Phrase.after_tokens (phrase : Phrase rank) :
    Due.operand.after phrase.tokens = some .operator := by
  match phrase with
  | .number value => rfl
  | .group inner => simp [Phrase.tokens, Due.next, inner.after_tokens]
  | .unsigned operand => exact operand.after_tokens
  | .negated (.number value) => rfl
  | .negated (.group inner) => simp [Phrase.tokens, Due.next, inner.after_tokens]
  | .unraised base => exact base.after_tokens
  | .raised base exponent =>
    simp [Phrase.tokens, Due.next, base.after_tokens, exponent.after_tokens]
  | .chain first links => simp [Phrase.tokens, first.after_tokens, links.after_tokens]

theorem Links.after_tokens (links : Links level) :
    Due.operator.after links.tokens = some .operator := by
  match links with
  | .done => rfl
  | .link operation operand others =>
    simp [Links.tokens, operation.next_token, operand.after_tokens, others.after_tokens]

end

end Grammar

end PocketCalc
