import PocketCalc.Expression.Evaluation

/-!
# The grammar of expressions

A derivation tree has one constructor for each alternative of a production:

    sum     := product (('+' | '-') product)*
    product := power (('*' | '/') power)*
    power   := signed ('^' power)?
    signed  := '-'? primary
    primary := NUMBER | '(' sum ')'

Sums and products are chains that differ in their level only. A tree has its tokens, its depth of
nesting and its value; none of them refers to a reader. `tokens_injective` is unambiguity: a token
list is derived by at most one tree.
-/
namespace PocketCalc.Grammar

inductive Level where
  | additive | multiplicative
  deriving DecidableEq, Repr

inductive Operation : Level → Type where
  | plus : Operation .additive
  | minus : Operation .additive
  | times : Operation .multiplicative
  | over : Operation .multiplicative
  deriving DecidableEq, Repr

namespace Operation

def token : Operation level → Token
  | .plus => .plus
  | .minus => .minus
  | .times => .times
  | .over => .over

def apply : Operation level → Float → Float → Float
  | .plus => (· + ·)
  | .minus => (· - ·)
  | .times => (· * ·)
  | .over => (· / ·)

end Operation

inductive Rank where
  | chain (level : Level)
  | power | signed | primary
  deriving DecidableEq, Repr

def Level.operand : Level → Rank
  | .additive => .chain .multiplicative
  | .multiplicative => .power

mutual

/-- A derivation tree with a production of the rank at its root. -/
inductive Phrase : Rank → Type where
  | number (value : Float) : Phrase .primary
  | group (inner : Phrase (.chain .additive)) : Phrase .primary
  | unsigned (operand : Phrase .primary) : Phrase .signed
  | negated (operand : Phrase .primary) : Phrase .signed
  | unraised (base : Phrase .signed) : Phrase .power
  | raised (base : Phrase .signed) (exponent : Phrase .power) : Phrase .power
  | chain {level : Level} (first : Phrase level.operand) (links : Links level) :
      Phrase (.chain level)

/-- The repeated part of a chain: an operation and its right operand, any number of times. -/
inductive Links : Level → Type where
  | done {level : Level} : Links level
  | link {level : Level} (operation : Operation level) (operand : Phrase level.operand)
      (others : Links level) : Links level

end

abbrev Sum := Phrase (.chain .additive)

mutual

def Phrase.tokens : Phrase rank → List Token
  | .number value => [.number value]
  | .group inner => .opening :: (inner.tokens ++ [.closing])
  | .unsigned operand => operand.tokens
  | .negated operand => .minus :: operand.tokens
  | .unraised base => base.tokens
  | .raised base exponent => base.tokens ++ .power :: exponent.tokens
  | .chain first links => first.tokens ++ links.tokens

def Links.tokens : Links level → List Token
  | .done => []
  | .link operation operand others => operation.token :: (operand.tokens ++ others.tokens)

end

mutual

/-- A parenthesis and the right side of a `^` are one level deeper than what surrounds them. -/
def Phrase.depth : Phrase rank → Nat
  | .number _ => 0
  | .group inner => inner.depth + 1
  | .unsigned operand => operand.depth
  | .negated operand => operand.depth
  | .unraised base => base.depth
  | .raised base exponent => max base.depth (exponent.depth + 1)
  | .chain first links => max first.depth links.depth

def Links.depth : Links level → Nat
  | .done => 0
  | .link _ operand others => max operand.depth others.depth

end

mutual

def Phrase.value : Phrase rank → Float
  | .number value => value
  | .group inner => inner.value
  | .unsigned operand => operand.value
  | .negated operand => -operand.value
  | .unraised base => base.value
  | .raised base exponent => base.value.pow exponent.value
  | .chain first links => links.fold first.value

/-- The value of a chain, from the value on the left of its links. -/
def Links.fold (left : Float) : Links level → Float
  | .done => left
  | .link operation operand others => others.fold (operation.apply left operand.value)

end

/-- Whether a token that follows a phrase of the rank ends it. -/
def Rank.stopsAt : Rank → Token → Bool
  | .chain .additive, token => token = .closing
  | .chain .multiplicative, token => token = .plus || token = .minus || token = .closing
  | .power, token => token ≠ .power
  | .signed, _ => true
  | .primary, _ => true

/-- A phrase of the rank may end where these tokens follow. -/
def Rank.Ends (rank : Rank) (rest : List Token) : Prop :=
  ∀ token ∈ rest.head?, rank.stopsAt token = true

theorem Rank.ends_nil (rank : Rank) : rank.Ends [] := by
  intro token member
  cases member

theorem Rank.ends_cons {rank : Rank} {token : Token} {rest : List Token} :
    rank.Ends (token :: rest) ↔ rank.stopsAt token = true := by
  simp [Rank.Ends]

theorem Rank.power_ends_or (rest : List Token) :
    Rank.power.Ends rest ∨ ∃ following, rest = .power :: following := by
  cases rest with
  | nil => exact .inl (Rank.ends_nil _)
  | cons token following =>
    cases token with
    | power => exact .inr ⟨following, rfl⟩
    | _ => exact .inl (Rank.ends_cons.mpr rfl)

theorem Level.operand_stopsAt {level : Level} {token : Token}
    (h : (Rank.chain level).stopsAt token = true) : level.operand.stopsAt token = true := by
  cases level <;> cases token <;> simp_all [Level.operand, Rank.stopsAt]

namespace Operation

theorem operand_stopsAt (operation : Operation level) :
    level.operand.stopsAt operation.token = true := by
  cases operation <;> rfl

theorem chain_not_stopsAt (operation : Operation level) :
    (Rank.chain level).stopsAt operation.token = false := by
  cases operation <;> rfl

theorem token_injective {first second : Operation level} (h : first.token = second.token) :
    first = second := by
  cases first <;> cases second <;> first | rfl | cases h

end Operation

/-- An operand of a chain ends where the links or what follows the chain begin. -/
theorem Links.operand_ends (links : Links level) {rest : List Token}
    (ends : (Rank.chain level).Ends rest) : level.operand.Ends (links.tokens ++ rest) := by
  cases links with
  | done => exact fun token member => level.operand_stopsAt (ends token member)
  | link operation operand others =>
    rw [Links.tokens, List.cons_append, Rank.ends_cons]
    exact operation.operand_stopsAt

theorem Phrase.primary_head (operand : Phrase .primary) :
    ∃ token others, operand.tokens = token :: others ∧ token.startsOperand = true := by
  cases operand with
  | number value => exact ⟨.number value, [], rfl, rfl⟩
  | group inner => exact ⟨.opening, _, rfl, rfl⟩

theorem Phrase.primary_tokens_ne_minus (operand : Phrase .primary) (rest others : List Token) :
    operand.tokens ++ rest ≠ .minus :: others := by
  obtain ⟨token, tail, shape, starts⟩ := operand.primary_head
  rw [shape]
  intro same
  cases same
  cases starts

mutual

/-- Reading from the left, a tree and what follows it are determined by the tokens. -/
theorem Phrase.eq_of_tokens_append {rank : Rank} (first second : Phrase rank)
    {rest rest' : List Token} (ends : rank.Ends rest) (ends' : rank.Ends rest')
    (same : first.tokens ++ rest = second.tokens ++ rest') : first = second ∧ rest = rest' := by
  cases first with
  | number value =>
    cases second with
    | number value' =>
      cases same
      exact ⟨rfl, rfl⟩
    | group inner => cases same
  | group inner =>
    cases second with
    | number value => cases same
    | group inner' =>
      simp only [Phrase.tokens, List.cons_append, List.append_assoc, List.nil_append,
        List.cons.injEq, true_and] at same
      have ⟨equal, closed⟩ := inner.eq_of_tokens_append inner' (Rank.ends_cons.mpr rfl)
        (Rank.ends_cons.mpr rfl) same
      exact ⟨congrArg Phrase.group equal, (List.cons.inj closed).2⟩
  | unsigned operand =>
    cases second with
    | unsigned operand' =>
      have ⟨equal, remaining⟩ := operand.eq_of_tokens_append operand' ends ends' same
      exact ⟨congrArg Phrase.unsigned equal, remaining⟩
    | negated operand' => exact absurd same (operand.primary_tokens_ne_minus _ _)
  | negated operand =>
    cases second with
    | unsigned operand' => exact absurd same.symm (operand'.primary_tokens_ne_minus _ _)
    | negated operand' =>
      have ⟨equal, remaining⟩ := operand.eq_of_tokens_append operand' ends ends'
        (List.cons.inj same).2
      exact ⟨congrArg Phrase.negated equal, remaining⟩
  | unraised base =>
    cases second with
    | unraised base' =>
      have ⟨equal, remaining⟩ := base.eq_of_tokens_append base' (fun _ _ => rfl) (fun _ _ => rfl)
        same
      exact ⟨congrArg Phrase.unraised equal, remaining⟩
    | raised base' exponent =>
      -- The bases agree, and then a power would have to end before its own `^`.
      rw [Phrase.tokens, Phrase.tokens, List.append_assoc] at same
      have ⟨_, remaining⟩ := base.eq_of_tokens_append base' (fun _ _ => rfl) (fun _ _ => rfl) same
      rw [remaining] at ends
      cases Rank.ends_cons.mp ends
  | raised base exponent =>
    cases second with
    | unraised base' =>
      rw [Phrase.tokens, Phrase.tokens, List.append_assoc] at same
      have ⟨_, remaining⟩ := base.eq_of_tokens_append base' (fun _ _ => rfl) (fun _ _ => rfl) same
      rw [← remaining] at ends'
      cases Rank.ends_cons.mp ends'
    | raised base' exponent' =>
      rw [Phrase.tokens, Phrase.tokens, List.append_assoc, List.append_assoc] at same
      have ⟨equal, later⟩ := base.eq_of_tokens_append base' (fun _ _ => rfl) (fun _ _ => rfl) same
      have ⟨equal', remaining⟩ := exponent.eq_of_tokens_append exponent' ends ends'
        (List.cons.inj later).2
      exact ⟨by rw [equal, equal'], remaining⟩
  | chain operand links =>
    cases second with
    | chain operand' links' =>
      rw [Phrase.tokens, Phrase.tokens, List.append_assoc, List.append_assoc] at same
      have ⟨equal, later⟩ := operand.eq_of_tokens_append operand' (links.operand_ends ends)
        (links'.operand_ends ends') same
      have ⟨equal', remaining⟩ := links.eq_of_tokens_append links' ends ends' later
      exact ⟨by rw [equal, equal'], remaining⟩

theorem Links.eq_of_tokens_append {level : Level} (first second : Links level)
    {rest rest' : List Token} (ends : (Rank.chain level).Ends rest)
    (ends' : (Rank.chain level).Ends rest')
    (same : first.tokens ++ rest = second.tokens ++ rest') : first = second ∧ rest = rest' := by
  match first, second with
  | .done, .done => exact ⟨rfl, same⟩
  | .done, .link operation operand others =>
    rw [show rest = _ from same] at ends
    cases operation.chain_not_stopsAt.symm.trans (Rank.ends_cons.mp ends)
  | .link operation operand others, .done =>
    rw [← show _ = rest' from same] at ends'
    cases operation.chain_not_stopsAt.symm.trans (Rank.ends_cons.mp ends')
  | .link operation operand others, .link operation' operand' others' =>
    simp only [Links.tokens, List.cons_append, List.append_assoc, List.cons.injEq] at same
    have ⟨equal, further⟩ := operand.eq_of_tokens_append operand' (others.operand_ends ends)
      (others'.operand_ends ends') same.2
    have ⟨equal', remaining⟩ := others.eq_of_tokens_append others' ends ends' further
    exact ⟨by rw [Operation.token_injective same.1, equal, equal'], remaining⟩

end

/-- No token list has two derivation trees of one rank. -/
theorem Phrase.tokens_injective (rank : Rank) :
    Function.Injective (Phrase.tokens : Phrase rank → List Token) := by
  intro first second same
  exact (first.eq_of_tokens_append second rank.ends_nil rank.ends_nil (by rw [same])).1

end PocketCalc.Grammar
