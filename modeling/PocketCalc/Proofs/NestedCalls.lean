import PocketCalc.Proofs.Position

/-!
# Nested calls

The readers by position once more, with an allowance of nested calls. A call hands on one call less
than it was given to each call that it makes, and where none is left it reports exhaustion, which
then ends the evaluation. An evaluation that is not exhausted has therefore kept every chain of
calls nested in each other within the allowance.
-/
namespace PocketCalc.Position

open Evaluation Grammar

/-- A call that may begin a chain of that many nested calls. -/
def readWithin : (calls : Nat) → (rank : Rank) → (depth : Nat) → Counter
  | 0, _, _ => fun _ => .error .exhausted
  | calls + 1, .chain level, depth =>
    chain (levelOperation? level) (readWithin calls level.operand depth)
  | calls + 1, .power, depth =>
    raised (readWithin calls .signed depth)
      (if depth < nestingLimit then readWithin calls .power (depth + 1) else tooDeep)
  | calls + 1, .signed, depth => signed (readWithin calls .primary depth)
  | calls + 1, .primary, depth =>
    primary
      (if depth < nestingLimit then readWithin calls (.chain .additive) (depth + 1) else tooDeep)

def evaluateWithin (calls : Nat) (tokens : List Token) : Except Stop Float :=
  (readWithin calls (.chain .additive) 0 tokens).bind (settle tokens)

/-- With as many calls as can be nested the allowance makes no difference. -/
theorem readWithin_eq_read {calls depth : Nat} {rank : Rank}
    (enough : callsBelow rank depth < calls) : readWithin calls rank depth = read rank depth := by
  induction calls generalizing rank depth with
  | zero => cases Nat.not_lt_zero _ enough
  | succ calls ih =>
    have nested {rank' : Rank} {depth' : Nat}
        (lower : callsBelow rank' depth' < callsBelow rank depth) :
        readWithin calls rank' depth' = read rank' depth' := ih (by omega)
    match rank with
    | .chain level => rw [readWithin, read, nested (callsBelow_operand level depth)]
    | .power =>
      rw [readWithin, read, nested (callsBelow_signed depth),
        ite_congr rfl (fun room => nested (callsBelow_exponent room)) fun _ => rfl]
    | .signed => rw [readWithin, read, nested (callsBelow_primary depth)]
    | .primary =>
      rw [readWithin, read, ite_congr rfl (fun room => nested (callsBelow_group room)) fun _ => rfl]

section
variable {calls depth : Nat} {tokens : List Token}

/-- The first operand stands at the end of a chain of five calls. -/
theorem readWithin_of_few (few : calls < 5) (depth : Nat) (tokens : List Token) :
    readWithin calls (.chain .additive) depth tokens = .error .exhausted := by
  match calls, few with
  | 0, _ | 1, _ | 2, _ | 3, _ => rfl
  | 4, _ =>
    cases tokens with
    | nil => rfl
    | cons token tokens => cases token <;> rfl

/-- An opening parenthesis makes the chain five calls longer. -/
theorem readWithin_opening (room : depth < nestingLimit)
    (inner : readWithin calls (.chain .additive) (depth + 1) tokens = .error .exhausted) :
    readWithin (calls + 5) (.chain .additive) depth (.opening :: tokens) = .error .exhausted := by
  have group : readWithin (calls + 1) .primary depth (.opening :: tokens) =
      .error .exhausted := by
    rw [readWithin, if_pos room, primary_opening, inner]
    rfl
  have sign : readWithin (calls + 2) .signed depth (.opening :: tokens) = .error .exhausted := group
  have power : readWithin (calls + 3) .power depth (.opening :: tokens) = .error .exhausted := by
    rw [readWithin, raised, sign]
    rfl
  have product : readWithin (calls + 4) (.chain .multiplicative) depth (.opening :: tokens) =
      .error .exhausted := by
    rw [readWithin, chain, Level.operand, power]
    rfl
  rw [readWithin, chain, Level.operand, product]
  rfl

end

/-- A number between so many pairs of parentheses. -/
def grouped (value : Float) : (levels : Nat) → Sum
  | 0 => .chain (.chain (.unraised (.unsigned (.number value))) .done) .done
  | levels + 1 =>
    .chain (.chain (.unraised (.unsigned (.group (grouped value levels)))) .done) .done

theorem depth_grouped (value : Float) (levels : Nat) : (grouped value levels).depth = levels := by
  induction levels with
  | zero => rfl
  | succ levels ih => simp [grouped, Phrase.depth, Links.depth, ih]

theorem tokens_grouped_succ (value : Float) (levels : Nat) :
    (grouped value (levels + 1)).tokens =
      .opening :: ((grouped value levels).tokens ++ [.closing]) := by
  simp [grouped, Phrase.tokens, Links.tokens]

theorem readWithin_grouped (value : Float) {levels calls depth : Nat}
    (room : depth + levels ≤ nestingLimit) (few : calls < 5 * (levels + 1)) (rest : List Token) :
    readWithin calls (.chain .additive) depth ((grouped value levels).tokens ++ rest) =
      .error .exhausted := by
  induction levels generalizing calls depth rest with
  | zero => exact readWithin_of_few few depth _
  | succ levels ih =>
    by_cases more : calls < 5
    · exact readWithin_of_few more depth _
    · obtain ⟨fewer, rfl⟩ := Nat.exists_eq_add_of_le' (Nat.le_of_not_lt more)
      rw [tokens_grouped_succ, List.cons_append, List.append_assoc]
      exact readWithin_opening (by omega) (ih (by omega) (by omega) _)

/-- No evaluation nests more than 1285 calls: with an allowance of that many it is never exhausted
and answers as ever. The bound is reached by an expression that is accepted. -/
theorem evaluateWithin_allowance :
    (∀ tokens, evaluateWithin 1285 tokens = (evaluateTokens tokens).mapError .fault ∧
      evaluateWithin 1285 tokens ≠ .error .exhausted) ∧
    ∃ tokens value, evaluateTokens tokens = .ok value ∧
      evaluateWithin 1284 tokens = .error .exhausted := by
  constructor
  · intro tokens
    have enough : callsBelow (.chain .additive) 0 < 1285 := by decide
    have answered : evaluateWithin 1285 tokens = (evaluateTokens tokens).mapError .fault := by
      rw [evaluateWithin, readWithin_eq_read enough]
      exact evaluate_eq tokens
    refine ⟨answered, ?_⟩
    rw [answered]
    cases evaluateTokens tokens <;> nofun
  · let tree := grouped 1 nestingLimit
    refine ⟨tree.tokens, tree.value, ?_, ?_⟩
    · rw [evaluateTokens_tokens, depth_grouped, if_pos (Nat.le_refl _)]
    · have exhausted := readWithin_grouped 1 (Nat.le_of_eq (Nat.zero_add nestingLimit))
        (by decide : 1284 < 5 * (nestingLimit + 1)) []
      rw [List.append_nil] at exhausted
      rw [evaluateWithin, exhausted]
      rfl

end PocketCalc.Position
