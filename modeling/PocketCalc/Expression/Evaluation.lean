import PocketCalc.Expression.Scan

/-!
# Evaluation

An expression is evaluated while it is read. A reader takes an operand from the head of a token
list and returns its value with the tokens that follow; it always takes at least one. Chains of `+
-` and of `* /` group to the left, `^` to the right, and the one sign that an operand may have
binds tighter than both. A parenthesis and a `^` each use up one level of room for nesting.
-/
namespace PocketCalc

structure Reading (tokens : List Token) where
  value : Float
  rest : List Token
  shorter : rest.length < tokens.length

abbrev Reader := (tokens : List Token) → Except ExpressionError (Reading tokens)

namespace Evaluation

def nestingLimit : Nat := 256

def tooDeep : Reader :=
  fun _ => .error (.tooDeep nestingLimit)

/-- A number, or what `group` reads between parentheses. -/
def primary (group : Reader) : Reader
  | [] => .error .unexpectedEnd
  | .number value :: rest => .ok ⟨value, rest, Nat.lt_succ_self _⟩
  | .opening :: tokens =>
    match group tokens with
    | .error error => .error error
    | .ok ⟨value, .closing :: rest, shorter⟩ =>
      .ok ⟨value, rest, by simp only [List.length_cons] at *; omega⟩
    | .ok ⟨_, [], _⟩ => .error .unmatchedParenthesis
    | .ok ⟨_, token :: _, _⟩ => .error (.unexpectedToken token.text ")".toList)
  | token :: _ => .error (.unexpectedToken token.text "number".toList)

def signed (group : Reader) : Reader
  | .minus :: tokens =>
    match primary group tokens with
    | .error error => .error error
    | .ok ⟨value, rest, shorter⟩ => .ok ⟨-value, rest, Nat.lt_succ_of_lt shorter⟩
  | tokens => primary group tokens

def raised (base exponent : Reader) (tokens : List Token) :
    Except ExpressionError (Reading tokens) :=
  match base tokens with
  | .error error => .error error
  | .ok ⟨value, .power :: later, shorter⟩ =>
    match exponent later with
    | .error error => .error error
    | .ok ⟨size, rest, h⟩ =>
      .ok ⟨value.pow size, rest, by simp only [List.length_cons] at *; omega⟩
  | .ok reading => .ok reading

/-- Goes on from a left operand while the next token is one of the operations. -/
def chainFrom (operation? : Token → Option (Float → Float → Float)) (operand : Reader)
    (tokens : List Token) (value : Float) (later : List Token)
    (shorter : later.length < tokens.length) : Except ExpressionError (Reading tokens) :=
  match later with
  | [] => .ok ⟨value, [], shorter⟩
  | token :: following =>
    match operation? token with
    | some operation =>
      match operand following with
      | .error error => .error error
      | .ok ⟨right, rest, h⟩ =>
        chainFrom operation? operand tokens (operation value right) rest
          (by simp only [List.length_cons] at *; omega)
    | none =>
      if token.startsOperand then .error (.unexpectedToken token.text "operator".toList)
      else .ok ⟨value, token :: following, shorter⟩
termination_by later.length
decreasing_by
  simp only [List.length_cons]
  omega

def chain (operation? : Token → Option (Float → Float → Float)) (operand : Reader)
    (tokens : List Token) : Except ExpressionError (Reading tokens) :=
  match operand tokens with
  | .error error => .error error
  | .ok ⟨value, later, shorter⟩ => chainFrom operation? operand tokens value later shorter

def additive? : Token → Option (Float → Float → Float)
  | .plus => some (· + ·)
  | .minus => some (· - ·)
  | _ => none

def multiplicative? : Token → Option (Float → Float → Float)
  | .times => some (· * ·)
  | .over => some (· / ·)
  | _ => none

/-- A whole expression, given how its powers are read. -/
def sum (power : Reader) : Reader :=
  chain additive? (chain multiplicative? power)

/-- A power that may nest as many levels deeper as there is room. -/
def power : (room : Nat) → (tokens : List Token) → Except ExpressionError (Reading tokens)
  | 0, tokens => raised (signed tooDeep) tooDeep tokens
  | room + 1, tokens => raised (signed (sum (power room))) (power room) tokens

def evaluateTokens (tokens : List Token) : Except ExpressionError Float :=
  match sum (power nestingLimit) tokens with
  | .error error => .error error
  | .ok ⟨value, [], _⟩ => .ok value
  | .ok ⟨_, .closing :: _, _⟩ => .error .unmatchedParenthesis
  | .ok ⟨_, token :: _, _⟩ => .error (.trailingInput token.text)

end Evaluation

def evaluate (text : Text) : Except ExpressionError Float :=
  match tokenize text with
  | .error error => .error error
  | .ok tokens => Evaluation.evaluateTokens tokens

end PocketCalc
