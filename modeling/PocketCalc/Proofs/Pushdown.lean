import PocketCalc.Proofs.Derivation

/-!
# A pushdown scan of expressions

One pass over the tokens from the left, with a stack in place of the recursion of the readers. The
state holds what is due next, the depth reached, the depth to which an operation of a chain falls
back, and for each open parenthesis the two depths around it. The scan forms no value. Its verdict
is shown to be that of the evaluation, faults with their texts included, so that the first fault
from the left decides the answer at whatever height of the recursion it is found.
-/
namespace PocketCalc.Pushdown

open Evaluation Grammar

inductive Due where
  | operand | primary | operator
  deriving DecidableEq, Repr

structure State where
  due : Due
  depth : Nat
  base : Nat
  saved : List (Nat × Nat)
  deriving DecidableEq, Repr

def start : State := ⟨.operand, 0, 0, []⟩

/-- Where an operand is due; a sign is allowed only if none has been read for it. -/
def stepOperand (state : State) : Token → Except ExpressionError State
  | .number _ => .ok { state with due := .operator }
  | .opening =>
    if state.depth = nestingLimit then .error (.tooDeep nestingLimit)
    else
      .ok ⟨.operand, state.depth + 1, state.depth + 1, (state.depth, state.base) :: state.saved⟩
  | .minus =>
    if state.due = .operand then .ok { state with due := .primary }
    else .error (.unexpectedToken Token.minus.text "number".toList)
  | token => .error (.unexpectedToken token.text "number".toList)

/-- After an operand. -/
def stepOperator (state : State) : Token → Except ExpressionError State
  | .plus | .minus | .times | .over => .ok { state with due := .operand, depth := state.base }
  | .power =>
    if state.depth = nestingLimit then .error (.tooDeep nestingLimit)
    else .ok { state with due := .operand, depth := state.depth + 1 }
  | .closing =>
    match state.saved with
    | [] => .error .unmatchedParenthesis
    | (depth, base) :: saved => .ok ⟨.operator, depth, base, saved⟩
  | token => .error (.unexpectedToken token.text "operator".toList)

def step (state : State) (token : Token) : Except ExpressionError State :=
  match state.due with
  | .operator => stepOperator state token
  | _ => stepOperand state token

/-- At the end of the tokens. -/
def finish (state : State) : Except ExpressionError Unit :=
  match state.due with
  | .operator => if state.saved = [] then .ok () else .error .unmatchedParenthesis
  | _ => .error .unexpectedEnd

def run (state : State) : List Token → Except ExpressionError Unit
  | [] => finish state
  | token :: rest => (step state token).bind fun next => run next rest

def verdict (tokens : List Token) : Except ExpressionError Unit :=
  run start tokens

/-- The state after some tokens. -/
def advance (state : State) (tokens : List Token) : Except ExpressionError State :=
  tokens.foldlM step state

theorem advance_cons (state : State) (token : Token) (tokens : List Token) :
    advance state (token :: tokens) = (step state token).bind fun next => advance next tokens :=
  List.foldlM_cons

theorem advance_append (state : State) (front back : List Token) :
    advance state (front ++ back) = (advance state front).bind fun next => advance next back :=
  List.foldlM_append

theorem run_eq (state : State) (tokens : List Token) :
    run state tokens = (advance state tokens).bind finish := by
  induction tokens generalizing state with
  | nil => rfl
  | cons token tokens ih =>
    rw [run, advance_cons]
    cases step state token with
    | error error => rfl
    | ok next => exact ih next

/-- Where no `^` follows an operand, the depth it has reached no longer matters. -/
theorem run_operator_depth {rest : List Token} (ends : Rank.power.Ends rest)
    (depth depth' base : Nat) (saved : List (Nat × Nat)) :
    run ⟨.operator, depth, base, saved⟩ rest = run ⟨.operator, depth', base, saved⟩ rest := by
  cases rest with
  | nil => rfl
  | cons token rest => cases token <;> first | rfl | cases Rank.ends_cons.mp ends

/-- From where an operand is due the scan does what the reader does, and goes on behind it. -/
def Agrees (reader : Reader) (depth base : Nat) : Prop :=
  ∀ saved tokens, run ⟨.operand, depth, base, saved⟩ tokens =
    (outcome (reader tokens)).bind fun reading => run ⟨.operator, depth, base, saved⟩ reading.2

/-- From an opening parenthesis the scan does what a reader of groups does. -/
def AgreesOnGroup (group : Reader) (depth : Nat) : Prop :=
  ∀ due base saved tokens, due ≠ .operator →
    run ⟨due, depth, base, saved⟩ (.opening :: tokens) =
      ((outcome (group tokens)).bind close).bind fun reading =>
        run ⟨.operator, depth, base, saved⟩ reading.2

/-- From a `^` the scan does what a reader of exponents does. -/
def AgreesOnExponent (exponent : Reader) (depth : Nat) : Prop :=
  ∀ base saved tokens, run ⟨.operator, depth, base, saved⟩ (.power :: tokens) =
    (outcome (exponent tokens)).bind fun reading => run ⟨.operator, depth, base, saved⟩ reading.2

theorem agreesOnGroup_tooDeep : AgreesOnGroup tooDeep nestingLimit := by
  intro due base saved tokens before
  cases due with
  | operator => exact absurd rfl before
  | operand => rfl
  | primary => rfl

theorem agreesOnExponent_tooDeep : AgreesOnExponent tooDeep nestingLimit := by
  intro base saved tokens
  rfl

section
variable {depth : Nat}

theorem agreesOnGroup_sum {bound : Nat} {group : Reader} (room : depth < nestingLimit)
    (reads : Reads (.chain .additive) bound group) (inner : Agrees group (depth + 1) (depth + 1)) :
    AgreesOnGroup group depth := by
  intro due base saved tokens before
  have opened : run ⟨due, depth, base, saved⟩ (.opening :: tokens) =
      run ⟨.operand, depth + 1, depth + 1, (depth, base) :: saved⟩ tokens := by
    cases due with
    | operator => exact absurd rfl before
    | operand | primary =>
      rw [run, step, stepOperand, if_neg (Nat.ne_of_lt room)]
      rfl
  rw [opened, inner]
  cases read : outcome (group tokens) with
  | error error => rfl
  | ok reading =>
    obtain ⟨value, rest⟩ := reading
    -- A sum ends before a closing parenthesis or with the tokens, and nowhere else.
    obtain ⟨-, -, -, -, ends⟩ := reads.sound _ _ _ read
    cases rest with
    | nil => rfl
    | cons token rest => cases token <;> first | rfl | cases Rank.ends_cons.mp ends

theorem agreesOnExponent_power {bound : Nat} {exponent : Reader} (room : depth < nestingLimit)
    (reads : Reads .power bound exponent) (inner : ∀ base, Agrees exponent (depth + 1) base) :
    AgreesOnExponent exponent depth := by
  intro base saved tokens
  rw [run, step, stepOperator, if_neg (Nat.ne_of_lt room)]
  show run ⟨.operand, depth + 1, base, saved⟩ tokens = _
  rw [inner base]
  cases read : outcome (exponent tokens) with
  | error error => rfl
  | ok reading =>
    obtain ⟨value, rest⟩ := reading
    obtain ⟨-, -, -, -, ends⟩ := reads.sound _ _ _ read
    exact run_operator_depth ends _ _ _ _

theorem run_primary {group : Reader} (grouped : AgreesOnGroup group depth) {due : Due}
    (base : Nat) (saved : List (Nat × Nat)) {tokens : List Token} (before : due ≠ .operator)
    (bare : due = .operand → ∀ others, tokens ≠ .minus :: others) :
    run ⟨due, depth, base, saved⟩ tokens =
      (outcome (primary group tokens)).bind fun reading =>
        run ⟨.operator, depth, base, saved⟩ reading.2 := by
  cases tokens with
  | nil =>
    cases due with
    | operator => exact absurd rfl before
    | operand | primary => rfl
  | cons token rest =>
    cases token with
    | opening => rw [grouped _ _ _ _ before, outcome_primary_opening]
    | minus =>
      cases due with
      | operator => exact absurd rfl before
      | operand => exact absurd rfl (bare rfl rest)
      | primary => rfl
    | _ =>
      cases due with
      | operator => exact absurd rfl before
      | operand | primary => rfl

theorem agrees_signed {group : Reader} (grouped : AgreesOnGroup group depth) (base : Nat) :
    Agrees (signed group) depth base := by
  intro saved tokens
  by_cases minus : ∃ others, tokens = .minus :: others
  · obtain ⟨others, rfl⟩ := minus
    rw [outcome_signed_minus]
    show run ⟨.primary, depth, base, saved⟩ others = _
    rw [@run_primary _ _ grouped .primary base saved others nofun nofun]
    cases outcome (primary group others) <;> rfl
  · have bare : ∀ others, tokens ≠ .minus :: others := fun others same => minus ⟨others, same⟩
    rw [signed_of_ne_minus bare]
    exact run_primary grouped base saved nofun fun _ => bare

theorem agrees_raised {left exponent : Reader} {base : Nat} (first : Agrees left depth base)
    (second : AgreesOnExponent exponent depth) : Agrees (raised left exponent) depth base := by
  intro saved tokens
  rw [first, outcome_raised]
  cases outcome (left tokens) with
  | error error => rfl
  | ok reading =>
    obtain ⟨value, later⟩ := reading
    show run _ later = (raise exponent (value, later)).bind _
    rcases Rank.power_ends_or later with ends | ⟨following, rfl⟩
    · rw [raise_of_ends ends]
      rfl
    · rw [second, raise]
      cases outcome (exponent following) <;> rfl

theorem step_operation {level : Level} (operation : Operation level) (state : State) :
    stepOperator state operation.token =
      .ok { state with due := .operand, depth := state.base } := by
  cases operation <;> rfl

/-- The loop of a chain; the depth it falls back to is the depth at which it began. -/
theorem run_chainFrom {level : Level} {operand : Reader} (agrees : Agrees operand depth depth)
    (saved : List (Nat × Nat)) {tokens : List Token} {value : Float} {later : List Token}
    (shorter : later.length < tokens.length) :
    run ⟨.operator, depth, depth, saved⟩ later =
      (outcome (chainFrom (levelOperation? level) operand tokens value later shorter)).bind
        fun reading => run ⟨.operator, depth, depth, saved⟩ reading.2 := by
  -- An operation of the level brings the scan back to the depth at which the loop began, which is
  -- the state that the induction hypothesis speaks of.
  fun_induction chainFrom (levelOperation? level) operand tokens value later shorter with
  | case1 => rfl
  | case2 value token following shorter apply found error failed =>
    obtain ⟨operation, rfl, -⟩ := exists_of_levelOperation? found
    rw [run, step, step_operation]
    show run ⟨.operand, depth, depth, saved⟩ following = _
    rw [agrees, failed]
    rfl
  | case3 value token following shorter apply found right rest h read longer ih =>
    obtain ⟨operation, rfl, -⟩ := exists_of_levelOperation? found
    rw [run, step, step_operation]
    show run ⟨.operand, depth, depth, saved⟩ following = _
    rw [agrees, read, ← ih]
    rfl
  | case4 value token following shorter absent starts =>
    cases token <;> first | rfl | cases starts
  | case5 => rfl

theorem agrees_chain (level : Level) {operand : Reader} (agrees : Agrees operand depth depth) :
    Agrees (chain (levelOperation? level) operand) depth depth := by
  intro saved tokens
  rw [agrees, chain]
  cases read : operand tokens with
  | error error => rfl
  | ok reading => exact run_chainFrom agrees saved _

theorem agrees_sum {reader : Reader} (agrees : Agrees reader depth depth) :
    Agrees (sum reader) depth depth :=
  agrees_chain .additive (agrees_chain .multiplicative agrees)

end

/-- Room is what lies between the depth of the scan and the limit. -/
theorem agrees_power (room : Nat) : ∀ depth base, depth + room = nestingLimit →
    Agrees (power room) depth base := by
  -- The base stays free in the hypothesis, since an exponent falls back to the base around it and
  -- a group to its own.
  induction room with
  | zero =>
    intro depth base full
    obtain rfl : depth = nestingLimit := full
    exact agrees_raised (agrees_signed agreesOnGroup_tooDeep base) agreesOnExponent_tooDeep
  | succ room ih =>
    intro depth base full
    have below : depth < nestingLimit := by omega
    have deeper : ∀ base, Agrees (power room) (depth + 1) base := fun base =>
      ih (depth + 1) base (by omega)
    have grouped := agreesOnGroup_sum below (reads_sum (reads_power room))
      (agrees_sum (deeper (depth + 1)))
    exact agrees_raised (agrees_signed grouped base)
      (agreesOnExponent_power below (reads_power room) deeper)

/-- An evaluation succeeds or fails as the scan does: on the way, or at the end of the tokens. -/
theorem map_evaluateTokens (tokens : List Token) :
    (evaluateTokens tokens).map (fun _ => ()) = (advance start tokens).bind finish := by
  have agrees := agrees_sum (agrees_power nestingLimit 0 0 (Nat.zero_add _)) [] tokens
  rw [evaluateTokens_eq, ← run_eq, start, agrees]
  cases read : outcome (sum (power nestingLimit) tokens) with
  | error error => rfl
  | ok reading =>
    obtain ⟨value, rest⟩ := reading
    obtain ⟨-, -, -, -, ends⟩ := (reads_sum (reads_power nestingLimit)).sound _ _ _ read
    cases rest with
    | nil => rfl
    | cons token rest => cases token <;> first | rfl | cases Rank.ends_cons.mp ends

/-- The evaluation of a token list succeeds, or fails with an error, exactly as one pass of the
scan over the tokens says. -/
theorem evaluateTokens_verdict (tokens : List Token) :
    (evaluateTokens tokens).map (fun _ => ()) = verdict tokens := by
  rw [verdict, run_eq]
  exact map_evaluateTokens tokens

theorem exists_advance_of_evaluateTokens {tokens : List Token} {value : Float}
    (read : evaluateTokens tokens = .ok value) :
    ∃ later, advance start tokens = .ok later ∧ finish later = .ok () := by
  have scanned := map_evaluateTokens tokens
  rw [read] at scanned
  exact bind_ok scanned.symm

variable {state later : State} {token : Token} {tokens : List Token}

theorem saved_of_opening (stepped : step state .opening = .ok later) :
    later.saved = (state.depth, state.base) :: state.saved := by
  obtain ⟨due, depth, base, saved⟩ := state
  cases due with
  | operator => cases stepped
  | operand | primary =>
    simp only [step, stepOperand] at stepped
    split at stepped
    · cases stepped
    · cases stepped
      rfl

theorem saved_of_step (mark : token ≠ .opening ∧ token ≠ .closing)
    (stepped : step state token = .ok later) : later.saved = state.saved := by
  obtain ⟨due, depth, base, saved⟩ := state
  cases token with
  | opening => exact absurd rfl mark.1
  | closing => exact absurd rfl mark.2
  | power =>
    cases due with
    | operand | primary => cases stepped
    | operator =>
      simp only [step, stepOperator] at stepped
      split at stepped
      · cases stepped
      · cases stepped
        rfl
  | _ => cases due <;> cases stepped <;> rfl

/-- Only a closing parenthesis takes from what is saved. -/
theorem suffix_saved_of_step (unclosed : token ≠ .closing)
    (stepped : step state token = .ok later) : state.saved <:+ later.saved := by
  by_cases opened : token = .opening
  · subst opened
    rw [saved_of_opening stepped]
    exact List.suffix_cons _ _
  · have same := saved_of_step ⟨opened, unclosed⟩ stepped
    exact same ▸ List.suffix_refl _

theorem suffix_saved_of_advance (unclosed : Token.closing ∉ tokens)
    (reached : advance state tokens = .ok later) : state.saved <:+ later.saved := by
  induction tokens generalizing state with
  | nil =>
    cases reached
    exact List.suffix_refl _
  | cons token tokens ih =>
    obtain ⟨first, others⟩ := not_or.mp (mt List.mem_cons.mpr unclosed)
    rw [advance_cons] at reached
    obtain ⟨next, stepped, rest⟩ := bind_ok reached
    exact (suffix_saved_of_step (Ne.symm first) stepped).trans (ih others rest)

theorem saved_of_finish (finished : finish state = .ok ()) : state.saved = [] := by
  unfold finish at finished
  split at finished
  · split at finished
    next closed => exact closed
    · cases finished
  · cases finished

/-- A parenthesis that nothing closes is refused, whatever stands before it. -/
theorem evaluateTokens_unclosed {front back : List Token} (unclosed : Token.closing ∉ back)
    (value : Float) : evaluateTokens (front ++ .opening :: back) ≠ .ok value := by
  intro read
  obtain ⟨last, reached, finished⟩ := exists_advance_of_evaluateTokens read
  rw [advance_append] at reached
  obtain ⟨before, -, rest⟩ := bind_ok reached
  rw [advance_cons] at rest
  obtain ⟨opened, stepped, rest⟩ := bind_ok rest
  have kept := suffix_saved_of_advance unclosed rest
  rw [saved_of_opening stepped, saved_of_finish finished] at kept
  simp at kept

end PocketCalc.Pushdown
