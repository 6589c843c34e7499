import PocketCalc.Proofs.Pushdown

/-!
# Reading by position

The readers of an evaluation once more, over positions: a call is given a slice of the tokens and
answers with its value and the number of tokens it has taken, from which its caller forms the next
index or slice. An index or a slice that lies outside of the tokens stops the evaluation. A call has
the rank of the phrases it reads and the depth of nesting at which it stands.
-/
namespace PocketCalc.Position

open Evaluation Grammar

/-- What stops an evaluation: a fault of the expression, an index or a slice outside of the tokens,
or the want of a further call. -/
inductive Stop where
  | fault (error : ExpressionError)
  | outOfRange
  | exhausted
  deriving DecidableEq, Repr

abbrev Counter := List Token → Except Stop (Float × Nat)

def tokenAt (tokens : List Token) (index : Nat) : Except Stop Token :=
  match tokens[index]? with
  | some token => .ok token
  | none => .error .outOfRange

def tokensFrom (tokens : List Token) (index : Nat) : Except Stop (List Token) :=
  if index ≤ tokens.length then .ok (tokens.drop index) else .error .outOfRange

def tooDeep : Counter :=
  fun _ => .error (.fault (.tooDeep nestingLimit))

/-- The end of a group, after what stands between the parentheses. -/
def closeGroup (tokens : List Token) : Float × Nat → Except Stop (Float × Nat)
  | (value, count) =>
    if count + 1 < tokens.length then
      (tokenAt tokens (count + 1)).bind fun
        | .closing => .ok (value, count + 1 + 1)
        | token => .error (.fault (.unexpectedToken token.text ")".toList))
    else .error (.fault .unmatchedParenthesis)

def primary (group : Counter) (tokens : List Token) : Except Stop (Float × Nat) :=
  if tokens.isEmpty then .error (.fault .unexpectedEnd)
  else
    (tokenAt tokens 0).bind fun
      | .number value => .ok (value, 1)
      | .opening => ((tokensFrom tokens 1).bind group).bind (closeGroup tokens)
      | token => .error (.fault (.unexpectedToken token.text "number".toList))

def signed (operand : Counter) (tokens : List Token) : Except Stop (Float × Nat) :=
  match tokens.head? with
  | some .minus =>
    ((tokensFrom tokens 1).bind operand).map fun (value, count) => (-value, count + 1)
  | _ => operand tokens

/-- The end of a power, after a base that ends at the index. -/
def raiseBy (exponent : Counter) (tokens : List Token) :
    Float × Nat → Except Stop (Float × Nat)
  | (value, index) =>
    match tokens[index]? with
    | some .power =>
      ((tokensFrom tokens (index + 1)).bind exponent).map fun (size, count) =>
        (value.pow size, index + (count + 1))
    | _ => .ok (value, index)

def raised (base exponent : Counter) (tokens : List Token) : Except Stop (Float × Nat) :=
  (base tokens).bind (raiseBy exponent tokens)

/-- Goes on from a left operand that ends at the index. -/
def chainFrom (operation? : Token → Option (Float → Float → Float)) (operand : Counter)
    (tokens : List Token) (value : Float) (index : Nat) : Except Stop (Float × Nat) :=
  if index < tokens.length then
    (tokenAt tokens index).bind fun token =>
      match operation? token with
      | some operation =>
        ((tokensFrom tokens (index + 1)).bind operand).bind fun (right, count) =>
          chainFrom operation? operand tokens (operation value right) (index + (count + 1))
      | none =>
        if token.startsOperand then
          .error (.fault (.unexpectedToken token.text "operator".toList))
        else .ok (value, index)
  else .ok (value, index)
termination_by tokens.length - index

def chain (operation? : Token → Option (Float → Float → Float)) (operand : Counter)
    (tokens : List Token) : Except Stop (Float × Nat) :=
  (operand tokens).bind fun (value, index) => chainFrom operation? operand tokens value index

/-- How many calls can be nested below a call of the rank before a group is entered. -/
def height : Rank → Nat
  | .chain .additive => 4
  | .chain .multiplicative => 3
  | .power => 2
  | .signed => 1
  | .primary => 0

/-- How many calls can be nested below a call of the rank at the depth. -/
def callsBelow (rank : Rank) (depth : Nat) : Nat :=
  5 * (nestingLimit - depth) + height rank

theorem callsBelow_operand (level : Level) (depth : Nat) :
    callsBelow level.operand depth < callsBelow (.chain level) depth := by
  cases level <;> simp [callsBelow, height, Level.operand]

theorem callsBelow_signed (depth : Nat) : callsBelow .signed depth < callsBelow .power depth := by
  simp [callsBelow, height]

theorem callsBelow_primary (depth : Nat) :
    callsBelow .primary depth < callsBelow .signed depth := by
  simp [callsBelow, height]

theorem callsBelow_exponent {depth : Nat} (room : depth < nestingLimit) :
    callsBelow .power (depth + 1) < callsBelow .power depth := by
  simp only [callsBelow]
  omega

theorem callsBelow_group {depth : Nat} (room : depth < nestingLimit) :
    callsBelow (.chain .additive) (depth + 1) < callsBelow .primary depth := by
  simp only [callsBelow, height]
  omega

/-- A call of the rank at the depth. A group and an exponent are one level deeper. -/
def read (rank : Rank) (depth : Nat) : Counter :=
  match rank with
  | .chain level => chain (levelOperation? level) (read level.operand depth)
  | .power =>
    raised (read .signed depth)
      (if depth < nestingLimit then read .power (depth + 1) else tooDeep)
  | .signed => signed (read .primary depth)
  | .primary =>
    primary (if depth < nestingLimit then read (.chain .additive) (depth + 1) else tooDeep)
termination_by callsBelow rank depth
decreasing_by
  · exact callsBelow_operand level depth
  · exact callsBelow_signed depth
  · exact callsBelow_exponent ‹_›
  · exact callsBelow_primary depth
  · exact callsBelow_group ‹_›

/-- The end of an evaluation, after an expression. -/
def settle (tokens : List Token) : Float × Nat → Except Stop Float
  | (value, count) =>
    match tokens[count]? with
    | none => .ok value
    | some .closing => .error (.fault .unmatchedParenthesis)
    | some token => .error (.fault (.trailingInput token.text))

def evaluate (tokens : List Token) : Except Stop Float :=
  (read (.chain .additive) 0 tokens).bind (settle tokens)

/-- At the position behind the tokens that are taken, an index finds the first token of the rest. -/
theorem getElem?_append_length (taken rest : List Token) :
    (taken ++ rest)[taken.length]? = rest.head? := by
  cases rest <;> simp

theorem tokenAt_append (taken : List Token) (token : Token) (rest : List Token) :
    tokenAt (taken ++ token :: rest) taken.length = .ok token := by
  simp [tokenAt]

theorem tokensFrom_append (taken : List Token) (token : Token) (rest : List Token) :
    tokensFrom (taken ++ token :: rest) (taken.length + 1) = .ok rest := by
  simp [tokensFrom]

theorem primary_opening (group : Counter) (tokens : List Token) :
    primary group (.opening :: tokens) =
      (group tokens).bind (closeGroup (.opening :: tokens)) :=
  rfl

theorem closeGroup_nil (value : Float) (taken : List Token) :
    closeGroup (.opening :: taken) (value, taken.length) =
      .error (.fault .unmatchedParenthesis) := by
  simp [closeGroup]

theorem closeGroup_cons (value : Float) (taken : List Token) (token : Token)
    (rest : List Token) :
    closeGroup (.opening :: (taken ++ token :: rest)) (value, taken.length) =
      if token = .closing then .ok (value, taken.length + 1 + 1)
      else .error (.fault (.unexpectedToken token.text ")".toList)) := by
  have found := tokenAt_append (.opening :: taken) token rest
  rw [List.cons_append, List.length_cons] at found
  rw [closeGroup, if_pos (by simp), found]
  cases token <;> rfl

theorem signed_minus (operand : Counter) (tokens : List Token) :
    signed operand (.minus :: tokens) =
      (operand tokens).map fun (value, count) => (-value, count + 1) :=
  rfl

theorem signed_eq_self {operand : Counter} {tokens : List Token}
    (bare : ∀ others, tokens ≠ .minus :: others) : signed operand tokens = operand tokens := by
  cases tokens with
  | nil => rfl
  | cons token others => cases token <;> first | rfl | exact absurd rfl (bare _)

theorem raiseBy_power (exponent : Counter) (value : Float) (taken following : List Token) :
    raiseBy exponent (taken ++ .power :: following) (value, taken.length) =
      (exponent following).map fun (size, count) =>
        (value.pow size, taken.length + (count + 1)) := by
  rw [raiseBy, getElem?_append_length, tokensFrom_append]
  rfl

theorem raiseBy_of_ends {exponent : Counter} {value : Float} {taken rest : List Token}
    (ends : Rank.power.Ends rest) :
    raiseBy exponent (taken ++ rest) (value, taken.length) = .ok (value, taken.length) := by
  rw [raiseBy, getElem?_append_length]
  split
  next found => cases ends _ found
  next => rfl

section
variable {operation? : Token → Option (Float → Float → Float)} {token : Token}

theorem chainFrom_operation {operation : Float → Float → Float}
    (found : operation? token = some operation) (operand : Counter) (value : Float)
    (taken following : List Token) :
    chainFrom operation? operand (taken ++ token :: following) value taken.length =
      (operand following).bind fun (right, count) =>
        chainFrom operation? operand (taken ++ token :: following) (operation value right)
          (taken.length + (count + 1)) := by
  rw [chainFrom, if_pos (by simp), tokenAt_append, tokensFrom_append]
  simp only [Except.bind, found]

theorem chainFrom_fault (absent : operation? token = none) (starts : token.startsOperand = true)
    (operand : Counter) (value : Float) (taken following : List Token) :
    chainFrom operation? operand (taken ++ token :: following) value taken.length =
      .error (.fault (.unexpectedToken token.text "operator".toList)) := by
  rw [chainFrom, if_pos (by simp), tokenAt_append]
  simp only [Except.bind, absent, starts, if_true]

theorem chainFrom_end {rest : List Token}
    (ends : ∀ token ∈ rest.head?, operation? token = none ∧ token.startsOperand = false)
    (operand : Counter) (value : Float) (taken : List Token) :
    chainFrom operation? operand (taken ++ rest) value taken.length =
      .ok (value, taken.length) := by
  cases rest with
  | nil => rw [chainFrom, if_neg (by simp)]
  | cons token following =>
    obtain ⟨absent, ended⟩ := ends token rfl
    rw [chainFrom, if_pos (by simp), tokenAt_append]
    simp only [Except.bind, absent, ended, Bool.false_eq_true, if_false]

end

theorem settle_eq (taken rest : List Token) (value : Float) :
    settle (taken ++ rest) (value, taken.length) =
      (Evaluation.settle (value, rest)).mapError .fault := by
  rw [settle, getElem?_append_length]
  cases rest with
  | nil => rfl
  | cons token rest => cases token <;> rfl

/-- The answer of a call matches that of a reader: the same fault, or the same value and as many
tokens taken as lie before those that are left. -/
inductive Tallies (tokens : List Token) :
    Except ExpressionError (Float × List Token) → Except Stop (Float × Nat) → Prop
  | fault (error : ExpressionError) : Tallies tokens (.error error) (.error (.fault error))
  | answer (value : Float) (taken : List Token) {rest : List Token} {count : Nat}
      (whole : taken ++ rest = tokens) (counted : taken.length = count) :
      Tallies tokens (.ok (value, rest)) (.ok (value, count))

section
variable {tokens tokens' : List Token} {result : Except ExpressionError (Float × List Token)}
  {answer : Except Stop (Float × Nat)}

theorem Tallies.bind {next : Float × List Token → Except ExpressionError (Float × List Token)}
    {next' : Float × Nat → Except Stop (Float × Nat)} (tally : Tallies tokens result answer)
    (goesOn : ∀ value taken rest, taken ++ rest = tokens →
      Tallies tokens' (next (value, rest)) (next' (value, taken.length))) :
    Tallies tokens' (result.bind next) (answer.bind next') := by
  cases tally with
  | fault error => exact .fault error
  | answer value taken whole counted =>
    subst counted
    exact goesOn value taken _ whole

theorem Tallies.map {next : Float × List Token → Float × List Token}
    {next' : Float × Nat → Float × Nat} (tally : Tallies tokens result answer)
    (goesOn : ∀ value taken rest, taken ++ rest = tokens →
      Tallies tokens' (.ok (next (value, rest))) (.ok (next' (value, taken.length)))) :
    Tallies tokens' (result.map next) (answer.map next') :=
  tally.bind goesOn

end

/-- A counter answers as a reader does, on all tokens. -/
def Counts (counter : Counter) (reader : Reader) : Prop :=
  ∀ tokens, Tallies tokens (outcome (reader tokens)) (counter tokens)

section
variable {counter exponent : Counter} {reader later : Reader}

theorem Counts.fault (counts : Counts counter reader) {tokens : List Token}
    {error : ExpressionError} (failed : outcome (reader tokens) = .error error) :
    counter tokens = .error (.fault error) := by
  have tally := counts tokens
  rw [failed] at tally
  generalize counter tokens = answer at tally
  cases tally
  rfl

theorem Counts.answer (counts : Counts counter reader) {tokens rest : List Token} {value : Float}
    (read : outcome (reader tokens) = .ok (value, rest)) :
    ∃ taken, taken ++ rest = tokens ∧ counter tokens = .ok (value, taken.length) := by
  have tally := counts tokens
  rw [read] at tally
  generalize counter tokens = answer at tally
  cases tally with
  | answer _ taken whole counted => exact ⟨taken, whole, by rw [counted]⟩

theorem counts_tooDeep : Counts tooDeep Evaluation.tooDeep :=
  fun _ => .fault _

theorem tallies_closeGroup (value : Float) (taken rest : List Token) :
    Tallies (.opening :: (taken ++ rest)) (close (value, rest))
      (closeGroup (.opening :: (taken ++ rest)) (value, taken.length)) := by
  cases rest with
  | nil =>
    rw [List.append_nil, closeGroup_nil]
    exact .fault _
  | cons token rest =>
    rw [closeGroup_cons]
    cases token with
    | closing => exact .answer value (.opening :: (taken ++ [.closing])) (by simp) (by simp)
    | _ => exact .fault _

theorem counts_primary (counts : Counts counter reader) :
    Counts (primary counter) (Evaluation.primary reader) := by
  intro tokens
  cases tokens with
  | nil => exact .fault _
  | cons token tokens =>
    cases token with
    | number value => exact .answer value [.number value] rfl rfl
    | opening =>
      rw [outcome_primary_opening, primary_opening]
      refine (counts tokens).bind ?_
      rintro value taken rest rfl
      exact tallies_closeGroup value taken rest
    | _ => exact .fault _

theorem counts_signed (counts : Counts counter (Evaluation.primary reader)) :
    Counts (signed counter) (Evaluation.signed reader) := by
  intro tokens
  by_cases minus : ∃ others, tokens = .minus :: others
  · obtain ⟨others, rfl⟩ := minus
    rw [outcome_signed_minus, signed_minus]
    refine (counts others).map ?_
    rintro value taken rest rfl
    exact .answer (-value) (.minus :: taken) rfl rfl
  · have bare (others : List Token) : tokens ≠ .minus :: others :=
      fun same => minus ⟨others, same⟩
    rw [signed_of_ne_minus bare, signed_eq_self bare]
    exact counts tokens

theorem tallies_raiseBy (counts : Counts exponent later) (value : Float)
    (taken rest : List Token) :
    Tallies (taken ++ rest) (raise later (value, rest))
      (raiseBy exponent (taken ++ rest) (value, taken.length)) := by
  rcases Rank.power_ends_or rest with ends | ⟨following, rfl⟩
  · rw [raise_of_ends ends, raiseBy_of_ends ends]
    exact .answer value taken rfl rfl
  · rw [raise, raiseBy_power]
    refine (counts following).map ?_
    rintro size more rest rfl
    exact .answer _ (taken ++ .power :: more) (by simp) (by simp)

theorem counts_raised (counts : Counts counter reader) (counts' : Counts exponent later) :
    Counts (raised counter exponent) (Evaluation.raised reader later) := by
  intro tokens
  rw [outcome_raised]
  refine (counts tokens).bind ?_
  rintro value taken rest rfl
  exact tallies_raiseBy counts' value taken rest

variable {operation? : Token → Option (Float → Float → Float)}

/-- The loop of a chain. Each turn takes an operation and its right operand off the rest. -/
theorem tallies_resume (counts : Counts counter reader) (value : Float)
    (taken rest : List Token) :
    Tallies (taken ++ rest) (resume operation? reader value rest)
      (chainFrom operation? counter (taken ++ rest) value taken.length) := by
  match rest with
  | [] =>
    rw [resume_end (by simp), chainFrom_end (by simp)]
    exact .answer value taken rfl rfl
  | token :: following =>
    cases found : operation? token with
    | some operation =>
      rw [resume_operation found, chainFrom_operation found]
      refine (counts following).bind ?_
      rintro right more rest rfl
      have further := tallies_resume counts (operation value right) (taken ++ token :: more) rest
      simpa only [List.append_assoc, List.cons_append, List.length_append, List.length_cons]
        using further
    | none =>
      cases starts : token.startsOperand with
      | true =>
        rw [resume_fault found starts, chainFrom_fault found starts]
        exact .fault _
      | false =>
        rw [resume_end (by simp [found, starts]), chainFrom_end (by simp [found, starts])]
        exact .answer value taken rfl rfl
termination_by rest.length

theorem counts_chain (counts : Counts counter reader) :
    Counts (chain operation? counter) (Evaluation.chain operation? reader) := by
  intro tokens
  rw [outcome_chain]
  refine (counts tokens).bind ?_
  rintro value taken rest rfl
  exact tallies_resume counts value taken rest

end

/-- A reader one level deeper. -/
def below (reader : Nat → Reader) : (room : Nat) → Reader
  | 0 => Evaluation.tooDeep
  | room + 1 => reader room

/-- The reader of the phrases of a rank, with room for as many more levels of nesting. -/
def readerOf (room : Nat) : Rank → Reader
  | .chain .additive => sum (power room)
  | .chain .multiplicative => Evaluation.chain multiplicative? (power room)
  | .power => power room
  | .signed => Evaluation.signed (below (fun room => sum (power room)) room)
  | .primary => Evaluation.primary (below (fun room => sum (power room)) room)

theorem readerOf_chain (room : Nat) (level : Level) :
    readerOf room (.chain level) =
      Evaluation.chain (levelOperation? level) (readerOf room level.operand) := by
  cases level <;> rfl

theorem readerOf_power (room : Nat) :
    readerOf room .power = Evaluation.raised (readerOf room .signed) (below power room) := by
  cases room <;> rfl

theorem reads_below {rank : Rank} {reader : Nat → Reader}
    (reads : ∀ room, Reads rank (room + 1) (reader room)) (room : Nat) :
    Reads rank room (below reader room) := by
  cases room with
  | zero => exact reads_tooDeep rank
  | succ room => exact reads room

theorem reads_readerOf (room : Nat) (rank : Rank) :
    Reads rank (room + 1) (readerOf room rank) := by
  have group := reads_below (fun room => reads_sum (reads_power room)) room
  match rank with
  | .chain .additive => exact reads_sum (reads_power room)
  | .chain .multiplicative => exact @reads_chain .multiplicative _ _ (reads_power room)
  | .power => exact reads_power room
  | .signed => exact reads_signed group
  | .primary => exact reads_primary group

theorem counts_below {counter : Counter} {reader : Nat → Reader} {depth : Nat}
    (counts : depth < nestingLimit → Counts counter (reader (nestingLimit - (depth + 1)))) :
    Counts (if depth < nestingLimit then counter else tooDeep)
      (below reader (nestingLimit - depth)) := by
  by_cases room : depth < nestingLimit
  · have left : nestingLimit - depth = nestingLimit - (depth + 1) + 1 := by omega
    rw [if_pos room, left]
    exact counts room
  · rw [if_neg room, Nat.sub_eq_zero_of_le (by omega)]
    exact counts_tooDeep

/-- By position the same is read; the room is what the depth leaves of the limit. -/
theorem counts_read (rank : Rank) (depth : Nat) :
    Counts (read rank depth) (readerOf (nestingLimit - depth) rank) := by
  -- Along the calls: the hypotheses are about the calls that a call makes itself.
  fun_induction read rank depth with
  | case1 depth level operand =>
    rw [readerOf_chain]
    exact counts_chain operand
  | case2 depth base exponent =>
    rw [readerOf_power]
    exact counts_raised base (counts_below exponent)
  | case3 depth operand => exact counts_signed operand
  | case4 depth group => exact counts_primary (counts_below group)

/-- The errors that the reading of tokens reports. -/
inductive Reported : ExpressionError → Prop
  | operandDue (found : Text) : Reported (.unexpectedToken found "number".toList)
  | operatorDue (found : Text) : Reported (.unexpectedToken found "operator".toList)
  | ended : Reported .unexpectedEnd
  | unmatched : Reported .unmatchedParenthesis
  | deep : Reported (.tooDeep nestingLimit)

theorem not_reported_closing {found : Text} : ¬ Reported (.unexpectedToken found ")".toList) := by
  intro reported
  cases reported

theorem reported_of_step {state : Pushdown.State} {token : Token} {error : ExpressionError}
    (failed : Pushdown.step state token = .error error) : Reported error := by
  obtain ⟨due, depth, base, saved⟩ := state
  -- The three steps that test the depth.
  have deep {next : Pushdown.State}
      (h : (if depth = nestingLimit then .error (.tooDeep nestingLimit) else .ok next) =
        (.error error : Except ExpressionError Pushdown.State)) : Reported error := by
    split at h <;> cases h
    exact .deep
  cases due <;> cases token
  case operand.opening | primary.opening | operator.power => exact deep failed
  case operator.closing => cases saved <;> cases failed; exact .unmatched
  all_goals cases failed
  case operator.number | operator.opening => exact .operatorDue _
  all_goals exact .operandDue _

theorem reported_of_run {state : Pushdown.State} {tokens : List Token} {error : ExpressionError}
    (failed : Pushdown.run state tokens = .error error) : Reported error := by
  induction tokens generalizing state with
  | nil =>
    obtain ⟨due, depth, base, saved⟩ := state
    cases due with
    | operator =>
      cases saved <;> cases failed
      exact .unmatched
    | operand | primary =>
      cases failed
      exact .ended
  | cons token tokens ih =>
    rw [Pushdown.run] at failed
    cases stepped : Pushdown.step state token with
    | error error' =>
      rw [stepped] at failed
      cases failed
      exact reported_of_step stepped
    | ok next =>
      rw [stepped] at failed
      exact ih failed

theorem agreesOnGroup_below {depth room : Nat} (full : depth + room = nestingLimit) :
    Pushdown.AgreesOnGroup (below (fun room => sum (power room)) room) depth := by
  cases room with
  | zero =>
    obtain rfl : depth = nestingLimit := full
    exact Pushdown.agreesOnGroup_tooDeep
  | succ room =>
    have deeper := Pushdown.agrees_power room (depth + 1) (depth + 1) (by omega)
    exact Pushdown.agreesOnGroup_sum (by omega) (reads_sum (reads_power room))
      (Pushdown.agrees_sum deeper)

/-- Where a phrase of the rank is due the scan reports what its reader reports. -/
theorem exists_run_readerOf {depth room : Nat} (full : depth + room = nestingLimit) (rank : Rank)
    (tokens : List Token) :
    ∃ due, Pushdown.run ⟨due, depth, depth, []⟩ tokens =
      (outcome (readerOf room rank tokens)).bind fun reading =>
        Pushdown.run ⟨.operator, depth, depth, []⟩ reading.2 := by
  have power := Pushdown.agrees_power room depth depth full
  have group := agreesOnGroup_below full
  match rank with
  | .chain .additive => exact ⟨.operand, Pushdown.agrees_sum power [] tokens⟩
  | .chain .multiplicative =>
    exact ⟨.operand, Pushdown.agrees_chain .multiplicative power [] tokens⟩
  | .power => exact ⟨.operand, power [] tokens⟩
  | .signed => exact ⟨.operand, Pushdown.agrees_signed group depth [] tokens⟩
  | .primary => exact ⟨.primary, Pushdown.run_primary group depth [] nofun nofun⟩

theorem reported_of_readerOf {room : Nat} (within : room ≤ nestingLimit) {rank : Rank}
    {tokens : List Token} {error : ExpressionError}
    (failed : outcome (readerOf room rank tokens) = .error error) : Reported error := by
  obtain ⟨due, run⟩ := exists_run_readerOf (Nat.sub_add_cancel within) rank tokens
  rw [failed] at run
  exact reported_of_run run

theorem reported_of_evaluateTokens {tokens : List Token} {error : ExpressionError}
    (failed : evaluateTokens tokens = .error error) : Reported error := by
  have scanned := Pushdown.evaluateTokens_verdict tokens
  rw [failed] at scanned
  exact reported_of_run scanned.symm

theorem length_lt_of_outcome {reader : Reader} {tokens rest : List Token} {value : Float}
    (read : outcome (reader tokens) = .ok (value, rest)) : rest.length < tokens.length := by
  obtain ⟨⟨value, rest, shorter⟩, -, same⟩ := map_ok read
  cases same
  exact shorter

theorem evaluate_eq (tokens : List Token) :
    evaluate tokens = (evaluateTokens tokens).mapError .fault := by
  have counts : Counts (read (.chain .additive) 0) (sum (power nestingLimit)) := counts_read _ 0
  rw [evaluate, evaluateTokens_eq]
  cases result : outcome (sum (power nestingLimit) tokens) with
  | error error =>
    rw [counts.fault result]
    rfl
  | ok reading =>
    obtain ⟨value, rest⟩ := reading
    obtain ⟨taken, rfl, counted⟩ := counts.answer result
    rw [counted]
    exact settle_eq taken rest value

/-- Every call either takes at least one token and none from outside of its slice, and stops where
its rank ends, or it fails with a fault of the expression; either way it answers as the reader of
its rank does. So no index and no slice is ever out of range, no group is found to end before any
other token than its closing parenthesis, and no evaluation leaves tokens behind. -/
theorem read_inRange :
    (∀ (rank : Rank) (depth : Nat) (tokens : List Token),
      (∃ value count, read rank depth tokens = .ok (value, count) ∧
        1 ≤ count ∧ count ≤ tokens.length ∧
        (∀ token ∈ tokens[count]?, rank.stopsAt token = true) ∧
        outcome (readerOf (nestingLimit - depth) rank tokens) = .ok (value, tokens.drop count)) ∨
      (∃ error, read rank depth tokens = .error (.fault error) ∧
        (∀ found, error ≠ .unexpectedToken found ")".toList) ∧
        outcome (readerOf (nestingLimit - depth) rank tokens) = .error error)) ∧
    ∀ tokens, evaluate tokens = (evaluateTokens tokens).mapError .fault ∧
      ∀ found, evaluateTokens tokens ≠ .error (.unexpectedToken found ")".toList) ∧
        evaluateTokens tokens ≠ .error (.trailingInput found) := by
  constructor
  · intro rank depth tokens
    cases result : outcome (readerOf (nestingLimit - depth) rank tokens) with
    | error error =>
      refine .inr ⟨error, (counts_read rank depth).fault result, ?_, rfl⟩
      rintro found rfl
      exact not_reported_closing (reported_of_readerOf (Nat.sub_le _ _) result)
    | ok reading =>
      obtain ⟨value, rest⟩ := reading
      obtain ⟨taken, rfl, counted⟩ := (counts_read rank depth).answer result
      -- What a reader takes is a phrase of its rank, and such a phrase says where it may end.
      obtain ⟨-, -, -, -, ends⟩ := (reads_readerOf _ rank).sound _ _ _ result
      have shorter := length_lt_of_outcome result
      rw [List.length_append] at shorter
      refine .inl ⟨value, taken.length, counted, by omega, by simp, ?_, by simp⟩
      rw [getElem?_append_length]
      exact ends
  · intro tokens
    refine ⟨evaluate_eq tokens, fun found => ⟨?_, ?_⟩⟩
    · intro failed
      exact not_reported_closing (reported_of_evaluateTokens failed)
    · intro failed
      cases reported_of_evaluateTokens failed

end PocketCalc.Position
