import PocketCalc.Proofs.Grammar

/-!
# Readers and derivations

What the readers of an evaluation do, said by derivation trees. `Reads rank bound reader` is the
specification of a reader: it reads every phrase of the rank whose depth is below the bound, it
answers a deeper one by the nesting error, and all that it reads is such a phrase, followed by a
token at which the rank ends. Each reader is shown to meet it from the readers it is made of.
-/
namespace PocketCalc.Evaluation

open Grammar

/-- What a reader answers, without the evidence that it took a token. -/
def outcome {tokens : List Token} (result : Except ExpressionError (Reading tokens)) :
    Except ExpressionError (Float × List Token) :=
  result.map fun reading => (reading.value, reading.rest)

/-- The end of a group, after what stands between the parentheses. -/
def close : Float × List Token → Except ExpressionError (Float × List Token)
  | (value, .closing :: rest) => .ok (value, rest)
  | (_, []) => .error .unmatchedParenthesis
  | (_, token :: _) => .error (.unexpectedToken token.text ")".toList)

/-- The end of a power, after its base. -/
def raise (exponent : Reader) : Float × List Token → Except ExpressionError (Float × List Token)
  | (value, .power :: later) =>
    (outcome (exponent later)).map fun (size, rest) => (value.pow size, rest)
  | reading => .ok reading

theorem length_lt_plus (later : List Token) : later.length < (Token.plus :: later).length :=
  Nat.lt_succ_self _

/-- The end of a chain, after its left operand. -/
def resume (operation? : Token → Option (Float → Float → Float)) (operand : Reader)
    (value : Float) (later : List Token) : Except ExpressionError (Float × List Token) :=
  outcome (chainFrom operation? operand (.plus :: later) value later (length_lt_plus later))

/-- The end of an evaluation, after an expression. -/
def settle : Float × List Token → Except ExpressionError Float
  | (value, []) => .ok value
  | (_, .closing :: _) => .error .unmatchedParenthesis
  | (_, token :: _) => .error (.trailingInput token.text)

theorem outcome_primary_opening (group : Reader) (tokens : List Token) :
    outcome (primary group (.opening :: tokens)) = (outcome (group tokens)).bind close := by
  rw [primary]
  split
  next error failed => rw [failed]; rfl
  next value rest shorter read => rw [read]; rfl
  next value shorter read => rw [read]; rfl
  next value token rest shorter open_ read =>
    rw [read]
    cases token <;> first | rfl | exact absurd rfl open_

theorem outcome_signed_minus (group : Reader) (tokens : List Token) :
    outcome (signed group (.minus :: tokens)) =
      (outcome (primary group tokens)).map fun (value, rest) => (-value, rest) := by
  rw [signed]
  cases primary group tokens <;> rfl

theorem signed_of_ne_minus {group : Reader} {tokens : List Token}
    (bare : ∀ others, tokens ≠ .minus :: others) : signed group tokens = primary group tokens := by
  cases tokens with
  | nil => rfl
  | cons token others => cases token <;> first | rfl | exact absurd rfl (bare _)

theorem outcome_raised (base exponent : Reader) (tokens : List Token) :
    outcome (raised base exponent tokens) = (outcome (base tokens)).bind (raise exponent) := by
  rw [raised]
  split
  next error failed => rw [failed]; rfl
  next value later shorter read =>
    rw [read]
    show _ = raise exponent (value, .power :: later)
    rw [raise]
    cases exponent later <;> rfl
  next reading other read =>
    rw [read]
    obtain ⟨value, rest, shorter⟩ := reading
    show _ = raise exponent (value, rest)
    cases rest with
    | nil => rfl
    | cons token later => cases token <;> first | rfl | exact absurd rfl (other _ _ _)

theorem raise_of_ends {exponent : Reader} {value : Float} {rest : List Token}
    (ends : Rank.power.Ends rest) : raise exponent (value, rest) = .ok (value, rest) := by
  cases rest with
  | nil => rfl
  | cons token others => cases token <;> first | rfl | cases Rank.ends_cons.mp ends

theorem evaluateTokens_eq (tokens : List Token) :
    evaluateTokens tokens = (outcome (sum (power nestingLimit) tokens)).bind settle := by
  rw [evaluateTokens]
  split
  next error failed => rw [failed]; rfl
  next value shorter read => rw [read]; rfl
  next value rest shorter read => rw [read]; rfl
  next value token rest shorter other read =>
    rw [read]
    cases token <;> first | rfl | exact absurd rfl other

section
variable {operation? : Token → Option (Float → Float → Float)} {operand : Reader}

/-- What a chain goes on to read depends on what lies ahead of it only. -/
theorem outcome_chainFrom_congr {tokens tokens' : List Token} {value : Float} {later : List Token}
    (shorter : later.length < tokens.length) (shorter' : later.length < tokens'.length) :
    outcome (chainFrom operation? operand tokens value later shorter) =
      outcome (chainFrom operation? operand tokens' value later shorter') := by
  -- Along the loop of the first chain; the second takes the same step on the same token.
  fun_induction chainFrom operation? operand tokens value later shorter with
  | case1 => rw [chainFrom]; rfl
  | case2 value token following shorter operation found error failed =>
    rw [chainFrom]
    simp only [found, failed]
    rfl
  | case3 value token following shorter operation found right rest h read longer ih =>
    rw [chainFrom]
    simp only [found, read]
    exact ih (by simp only [List.length_cons] at *; omega)
  | case4 value token following shorter absent starts =>
    rw [chainFrom]
    simp only [absent, starts, if_true]
    rfl
  | case5 value token following shorter absent ends =>
    rw [chainFrom]
    simp only [absent, ends]
    rfl

theorem outcome_chain (tokens : List Token) :
    outcome (chain operation? operand tokens) =
      (outcome (operand tokens)).bind fun (value, later) =>
        resume operation? operand value later := by
  rw [chain]
  cases read : operand tokens with
  | error error => rfl
  | ok reading => exact outcome_chainFrom_congr _ _

theorem resume_operation {token : Token} {operation : Float → Float → Float}
    (found : operation? token = some operation) (value : Float) (following : List Token) :
    resume operation? operand value (token :: following) =
      (outcome (operand following)).bind fun (right, rest) =>
        resume operation? operand (operation value right) rest := by
  rw [resume, chainFrom]
  simp only [found]
  cases read : operand following with
  | error error => rfl
  | ok reading => exact outcome_chainFrom_congr _ _

theorem resume_fault {token : Token} (absent : operation? token = none)
    (starts : token.startsOperand = true) (value : Float) (following : List Token) :
    resume operation? operand value (token :: following) =
      .error (.unexpectedToken token.text "operator".toList) := by
  rw [resume, chainFrom]
  simp only [absent, starts, if_true]
  rfl

theorem resume_end {rest : List Token}
    (ends : ∀ token ∈ rest.head?, operation? token = none ∧ token.startsOperand = false)
    (value : Float) : resume operation? operand value rest = .ok (value, rest) := by
  cases rest with
  | nil =>
    rw [resume, chainFrom]
    rfl
  | cons token following =>
    obtain ⟨absent, ended⟩ := ends token rfl
    rw [resume, chainFrom]
    simp only [absent, ended, Bool.false_eq_true, if_false]
    rfl

end

/-- The specification of a reader of phrases that may nest to a depth below the bound. -/
structure Reads (rank : Rank) (bound : Nat) (reader : Reader) : Prop where
  complete : ∀ (phrase : Phrase rank) (rest : List Token), rank.Ends rest →
    outcome (reader (phrase.tokens ++ rest)) =
      if phrase.depth < bound then .ok (phrase.value, rest) else .error (.tooDeep nestingLimit)
  sound : ∀ (tokens : List Token) (value : Float) (rest : List Token),
    outcome (reader tokens) = .ok (value, rest) →
      ∃ phrase : Phrase rank, phrase.tokens ++ rest = tokens ∧ phrase.depth < bound ∧
        phrase.value = value ∧ rank.Ends rest

/-- Without room nothing can be read that is nested. -/
theorem reads_tooDeep (rank : Rank) : Reads rank 0 tooDeep where
  complete phrase rest _ := by simp [tooDeep, outcome, Except.map]
  sound tokens value rest read := by simp [tooDeep, outcome, Except.map] at read

theorem bind_ok {ε α β : Type} {first : Except ε α} {next : α → Except ε β} {value : β}
    (h : first.bind next = .ok value) : ∃ middle, first = .ok middle ∧ next middle = .ok value := by
  cases first with
  | error error => cases h
  | ok middle => exact ⟨middle, rfl, h⟩

theorem map_ok {ε α β : Type} {first : Except ε α} {next : α → β} {value : β}
    (h : first.map next = .ok value) : ∃ middle, first = .ok middle ∧ next middle = value := by
  cases first with
  | error error => cases h
  | ok middle => exact ⟨middle, rfl, Except.ok.inj h⟩

theorem close_ok {value result : Float} {later rest : List Token}
    (h : close (value, later) = .ok (result, rest)) :
    later = .closing :: rest ∧ value = result := by
  cases later with
  | nil => cases h
  | cons token others =>
    cases token <;> cases h
    exact ⟨rfl, rfl⟩

section
variable {bound : Nat} {group exponent operand : Reader}

theorem reads_primary (inner : Reads (.chain .additive) bound group) :
    Reads .primary (bound + 1) (primary group) where
  complete phrase rest ends := by
    cases phrase with
    | number value => rfl
    | group phrase =>
      have closed : (Rank.chain .additive).Ends (.closing :: rest) := Rank.ends_cons.mpr rfl
      rw [Phrase.tokens, List.cons_append, List.append_assoc, List.singleton_append,
        outcome_primary_opening, inner.complete phrase _ closed]
      by_cases room : phrase.depth < bound
      · rw [if_pos room, if_pos (by rw [Phrase.depth]; omega)]
        rfl
      · rw [if_neg room, if_neg (by rw [Phrase.depth]; omega)]
        rfl
  sound tokens value rest read := by
    cases tokens with
    | nil => cases read
    | cons token tokens =>
      cases token with
      | number value' =>
        cases read
        exact ⟨.number value', rfl, Nat.succ_pos _, rfl, fun _ _ => rfl⟩
      | opening =>
        rw [outcome_primary_opening] at read
        obtain ⟨⟨result, later⟩, first, closed⟩ := bind_ok read
        obtain ⟨rfl, rfl⟩ := close_ok closed
        obtain ⟨phrase, shape, room, same, -⟩ := inner.sound _ _ _ first
        refine ⟨.group phrase, ?_, Nat.succ_lt_succ room, same, fun _ _ => rfl⟩
        rw [Phrase.tokens, List.cons_append, List.append_assoc, ← shape]
        rfl
      | _ => cases read

theorem reads_signed (inner : Reads (.chain .additive) bound group) :
    Reads .signed (bound + 1) (signed group) where
  complete phrase rest ends := by
    cases phrase with
    | unsigned operand =>
      rw [Phrase.tokens, signed_of_ne_minus (operand.primary_tokens_ne_minus rest)]
      exact (reads_primary inner).complete operand rest ends
    | negated operand =>
      rw [Phrase.tokens, List.cons_append, outcome_signed_minus,
        (reads_primary inner).complete operand rest ends, Phrase.depth]
      split <;> rfl
  sound tokens value rest read := by
    by_cases minus : ∃ others, tokens = .minus :: others
    · obtain ⟨others, rfl⟩ := minus
      rw [outcome_signed_minus] at read
      obtain ⟨⟨result, later⟩, first, negated⟩ := map_ok read
      cases negated
      obtain ⟨operand, shape, room, rfl, ends⟩ := (reads_primary inner).sound _ _ _ first
      exact ⟨.negated operand, congrArg _ shape, room, rfl, ends⟩
    · rw [signed_of_ne_minus fun others same => minus ⟨others, same⟩] at read
      obtain ⟨operand, shape, room, same, ends⟩ := (reads_primary inner).sound _ _ _ read
      exact ⟨.unsigned operand, shape, room, same, ends⟩

theorem reads_raised {base : Reader} (left : Reads .signed (bound + 1) base)
    (right : Reads .power bound exponent) : Reads .power (bound + 1) (raised base exponent) where
  complete phrase rest ends := by
    rw [outcome_raised]
    cases phrase with
    | unraised phrase =>
      rw [Phrase.tokens, left.complete phrase rest fun _ _ => rfl, Phrase.depth]
      split
      · exact raise_of_ends ends
      · rfl
    | raised phrase power =>
      rw [Phrase.tokens, List.append_assoc, left.complete phrase _ fun _ _ => rfl]
      by_cases room : phrase.depth < bound + 1
      · rw [if_pos room]
        show raise exponent (phrase.value, .power :: (power.tokens ++ rest)) = _
        rw [raise, right.complete power rest ends]
        by_cases higher : power.depth < bound
        · rw [if_pos higher, if_pos (by rw [Phrase.depth]; omega)]
          rfl
        · rw [if_neg higher, if_neg (by rw [Phrase.depth]; omega)]
          rfl
      · rw [if_neg room, if_neg (by rw [Phrase.depth]; omega)]
        rfl
  sound tokens value rest read := by
    rw [outcome_raised] at read
    obtain ⟨⟨size, later⟩, first, raised⟩ := bind_ok read
    obtain ⟨phrase, rfl, room, rfl, -⟩ := left.sound _ _ _ first
    rcases Rank.power_ends_or later with ends | ⟨following, rfl⟩
    · rw [raise_of_ends ends] at raised
      cases raised
      exact ⟨.unraised phrase, rfl, room, rfl, ends⟩
    · obtain ⟨⟨exponent, remaining⟩, second, same⟩ := map_ok raised
      cases same
      obtain ⟨power, rfl, room', rfl, ends⟩ := right.sound _ _ _ second
      refine ⟨.raised phrase power, by simp [Phrase.tokens], ?_, rfl, ends⟩
      rw [Phrase.depth]
      omega

end

/-- The operation that a token stands for in a chain of the level. -/
def levelOperation? : Level → Token → Option (Float → Float → Float)
  | .additive => additive?
  | .multiplicative => multiplicative?

theorem levelOperation?_token (operation : Operation level) :
    levelOperation? level operation.token = some operation.apply := by
  cases operation <;> rfl

theorem exists_of_levelOperation? {token : Token} {apply : Float → Float → Float}
    (found : levelOperation? level token = some apply) :
    ∃ operation : Operation level, operation.token = token ∧ operation.apply = apply := by
  cases level with
  | additive =>
    cases token <;> cases found
    · exact ⟨.plus, rfl, rfl⟩
    · exact ⟨.minus, rfl, rfl⟩
  | multiplicative =>
    cases token <;> cases found
    · exact ⟨.times, rfl, rfl⟩
    · exact ⟨.over, rfl, rfl⟩

/-- A chain ends where its last operand ends and no operation of its level follows. -/
theorem chain_stopsAt_iff {token : Token} :
    (Rank.chain level).stopsAt token = true ↔
      level.operand.stopsAt token = true ∧ levelOperation? level token = none ∧
        token.startsOperand = false := by
  cases level <;> cases token <;>
    simp [Rank.stopsAt, Level.operand, levelOperation?, additive?, multiplicative?,
      Token.startsOperand]

section
variable {level : Level} {bound : Nat} {operand : Reader}

theorem resume_links (reads : Reads level.operand bound operand) (positive : 0 < bound)
    (links : Links level) {rest : List Token} (ends : (Rank.chain level).Ends rest)
    (value : Float) :
    resume (levelOperation? level) operand value (links.tokens ++ rest) =
      if links.depth < bound then .ok (links.fold value, rest)
      else .error (.tooDeep nestingLimit) := by
  match links with
  | .done =>
    rw [Links.depth, if_pos positive]
    exact resume_end (fun token member => (chain_stopsAt_iff.mp (ends token member)).2) value
  | .link operation right others =>
    rw [Links.tokens, List.cons_append, List.append_assoc,
      resume_operation (levelOperation?_token operation), Links.depth,
      reads.complete right _ (others.operand_ends ends)]
    by_cases room : right.depth < bound
    · rw [if_pos room]
      show resume _ _ (operation.apply value right.value) (others.tokens ++ rest) = _
      rw [resume_links reads positive others ends]
      by_cases later : others.depth < bound
      · rw [if_pos later, if_pos (by omega), Links.fold]
      · rw [if_neg later, if_neg (by omega)]
    · rw [if_neg room, if_neg (by omega)]
      rfl

theorem chainFrom_sound (reads : Reads level.operand bound operand) (positive : 0 < bound)
    {tokens : List Token} {value : Float} {later : List Token}
    (shorter : later.length < tokens.length) (ends : level.operand.Ends later) {result : Float}
    {rest : List Token}
    (read : outcome (chainFrom (levelOperation? level) operand tokens value later shorter) =
      .ok (result, rest)) :
    ∃ links : Links level, links.tokens ++ rest = later ∧ links.depth < bound ∧
      links.fold value = result ∧ (Rank.chain level).Ends rest := by
  fun_induction chainFrom (levelOperation? level) operand tokens value later shorter with
  | case1 value =>
    cases read
    exact ⟨.done, rfl, positive, rfl, Rank.ends_nil _⟩
  | case2 => cases read
  | case3 value token following shorter apply found right middle h first longer ih =>
    obtain ⟨operation, rfl, rfl⟩ := exists_of_levelOperation? found
    obtain ⟨phrase, rfl, room, rfl, stops⟩ := reads.sound following right middle
      (by rw [first]; rfl)
    obtain ⟨links, rfl, room', folded, ended⟩ := ih stops read
    refine ⟨.link operation phrase links, by simp [Links.tokens], ?_, folded, ended⟩
    rw [Links.depth]
    omega
  | case4 => cases read
  | case5 value token following shorter absent ended =>
    cases read
    refine ⟨.done, rfl, positive, rfl, Rank.ends_cons.mpr (chain_stopsAt_iff.mpr ⟨?_, absent, ?_⟩)⟩
    · exact Rank.ends_cons.mp ends
    · simpa using ended

theorem reads_chain (reads : Reads level.operand bound operand) :
    Reads (.chain level) bound (chain (levelOperation? level) operand) where
  complete phrase rest ends := by
    cases phrase with
    | chain first links =>
      rw [outcome_chain, Phrase.tokens, List.append_assoc, Phrase.depth,
        reads.complete first _ (links.operand_ends ends)]
      by_cases room : first.depth < bound
      · rw [if_pos room]
        show resume _ _ first.value (links.tokens ++ rest) = _
        rw [resume_links reads (by omega) links ends]
        by_cases later : links.depth < bound
        · rw [if_pos later, if_pos (by omega), Phrase.value]
        · rw [if_neg later, if_neg (by omega)]
      · rw [if_neg room, if_neg (by omega)]
        rfl
  sound tokens value rest read := by
    rw [outcome_chain] at read
    obtain ⟨⟨left, later⟩, first, followed⟩ := bind_ok read
    obtain ⟨phrase, rfl, room, rfl, ends⟩ := reads.sound _ _ _ first
    obtain ⟨links, rfl, room', folded, ended⟩ := chainFrom_sound reads (by omega) _ ends followed
    refine ⟨.chain phrase links, by simp [Phrase.tokens], ?_, folded, ended⟩
    rw [Phrase.depth]
    omega

end

theorem reads_sum {bound : Nat} {reader : Reader} (reads : Reads .power bound reader) :
    Reads (.chain .additive) bound (sum reader) :=
  @reads_chain .additive _ _ (@reads_chain .multiplicative _ _ reads)

/-- Room for nesting is what bounds the depth of the phrases that are read. -/
theorem reads_power (room : Nat) : Reads .power (room + 1) (power room) := by
  induction room with
  | zero => exact reads_raised (reads_signed (reads_tooDeep _)) (reads_tooDeep _)
  | succ room ih =>
    -- Groups and exponents nest alike: both are read with the room that is left.
    exact reads_raised (reads_signed (reads_sum ih)) ih

/-- A sentence is evaluated to the value of its tree, unless it is nested too deeply. -/
theorem evaluateTokens_tokens (tree : Sum) :
    evaluateTokens tree.tokens =
      if tree.depth ≤ nestingLimit then .ok tree.value else .error (.tooDeep nestingLimit) := by
  have read := (reads_sum (reads_power nestingLimit)).complete tree [] (Rank.ends_nil _)
  rw [List.append_nil] at read
  rw [evaluateTokens_eq, read]
  by_cases room : tree.depth ≤ nestingLimit
  · rw [if_pos room, if_pos (Nat.lt_succ_of_le room)]
    rfl
  · rw [if_neg room, if_neg (by omega)]
    rfl

theorem outcome_power_minus_number (room : Nat) (value : Float) (rest : List Token) :
    outcome (power room (.minus :: .number value :: rest)) =
      outcome (power room (.number (-value) :: rest)) := by
  cases room with
  | zero =>
    rw [power, power, outcome_raised, outcome_raised]
    rfl
  | succ room =>
    rw [power, power, outcome_raised, outcome_raised]
    rfl

/-- A sign before the first number may be taken into the number. -/
theorem evaluateTokens_minus_number (value : Float) (rest : List Token) :
    evaluateTokens (.minus :: .number value :: rest) =
      evaluateTokens (.number (-value) :: rest) := by
  rw [evaluateTokens_eq, evaluateTokens_eq, sum, outcome_chain, outcome_chain, outcome_chain,
    outcome_chain, outcome_power_minus_number]

/-- What is evaluated to a value is a sentence with that value. -/
theorem exists_tree_of_evaluateTokens {tokens : List Token} {value : Float}
    (read : evaluateTokens tokens = .ok value) :
    ∃ tree : Sum, tree.tokens = tokens ∧ tree.depth ≤ nestingLimit ∧ tree.value = value := by
  rw [evaluateTokens_eq] at read
  obtain ⟨⟨result, rest⟩, first, settled⟩ := bind_ok read
  obtain ⟨tree, rfl, room, rfl, ends⟩ := (reads_sum (reads_power nestingLimit)).sound _ _ _ first
  cases rest with
  | nil =>
    cases settled
    exact ⟨tree, (List.append_nil _).symm, Nat.le_of_lt_succ room, rfl⟩
  | cons token others => cases token <;> cases settled

/-- Evaluation accepts exactly the sentences of the grammar whose nesting stays within the limit,
with the value of their derivation tree, and a sentence has one derivation tree only. -/
theorem evaluateTokens_eq_ok_iff (tokens : List Token) (value : Float) :
    (evaluateTokens tokens = .ok value ↔
      ∃ tree : Sum, tree.tokens = tokens ∧ tree.depth ≤ nestingLimit ∧ tree.value = value) ∧
    Function.Injective (Phrase.tokens : Sum → List Token) := by
  refine ⟨⟨exists_tree_of_evaluateTokens, ?_⟩, Phrase.tokens_injective _⟩
  rintro ⟨tree, rfl, room, rfl⟩
  rw [evaluateTokens_tokens, if_pos room]

end PocketCalc.Evaluation
