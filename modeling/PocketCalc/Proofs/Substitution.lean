import PocketCalc.Proofs.Derivation

/-!
# Substitution of operands

A context is a tree with a gap, and depends on what fills the gap only by its depth and its meaning.
Contexts are built in layers, one for each place that a production has for a part. Every primary of
a sentence stands, with its sign, in the gap of such a context. Another primary of the same value may
therefore be put there, and the sentence keeps its value unless it is then nested too deeply.
-/
namespace PocketCalc

namespace Grammar

def signTokens (negative : Bool) : List Token :=
  if negative then [.minus] else []

def Phrase.withSign (operand : Phrase .primary) (negative : Bool) : Phrase .signed :=
  if negative then .negated operand else .unsigned operand

section
variable (operand : Phrase .primary) (negative : Bool)

theorem Phrase.tokens_withSign :
    (operand.withSign negative).tokens = signTokens negative ++ operand.tokens := by
  cases negative <;> rfl

theorem Phrase.depth_withSign : (operand.withSign negative).depth = operand.depth := by
  cases negative <;> rfl

theorem Phrase.value_withSign :
    (operand.withSign negative).value = if negative then -operand.value else operand.value := by
  cases negative <;> rfl

end

/-- A kind of tree with what is observed of it. -/
structure Kind where
  Tree : Type
  Meaning : Type
  tokens : Tree → List Token
  depth : Tree → Nat
  meaning : Tree → Meaning

/-- The meaning of a phrase is its value. -/
abbrev Kind.phrase (rank : Rank) : Kind :=
  ⟨Phrase rank, Float, Phrase.tokens, Phrase.depth, Phrase.value⟩

/-- The meaning of links is what they make of the value on their left. -/
abbrev Kind.links (level : Level) : Kind :=
  ⟨Links level, Float → Float, Links.tokens, Links.depth, fun links left => links.fold left⟩

/-- A tree of one kind with a gap for one of another. -/
structure Context (inner outer : Kind) where
  before : List Token
  after : List Token
  fill : inner.Tree → outer.Tree
  tokens_fill (part : inner.Tree) :
    outer.tokens (fill part) = before ++ (inner.tokens part ++ after)
  depth_fill {first second : inner.Tree} (h : inner.depth first ≤ inner.depth second) :
    outer.depth (fill first) ≤ outer.depth (fill second)
  meaning_fill {first second : inner.Tree} (h : inner.meaning first = inner.meaning second) :
    outer.meaning (fill first) = outer.meaning (fill second)

namespace Context

def hole (kind : Kind) : Context kind kind where
  before := []
  after := []
  fill part := part
  tokens_fill _ := (List.append_nil _).symm
  depth_fill h := h
  meaning_fill h := h

def within {inner middle outer : Kind} (context : Context inner middle)
    (layer : Context middle outer) : Context inner outer where
  before := layer.before ++ context.before
  after := context.after ++ layer.after
  fill part := layer.fill (context.fill part)
  tokens_fill part := by simp [layer.tokens_fill, context.tokens_fill]
  depth_fill h := layer.depth_fill (context.depth_fill h)
  meaning_fill h := layer.meaning_fill (context.meaning_fill h)

def group (negative : Bool) : Context (.phrase (.chain .additive)) (.phrase .signed) where
  before := signTokens negative ++ [.opening]
  after := [.closing]
  fill inner := (Phrase.group inner).withSign negative
  tokens_fill inner := by simp [Phrase.tokens_withSign, Phrase.tokens]
  depth_fill h := by simpa [Phrase.depth_withSign, Phrase.depth] using h
  meaning_fill h := by simp [Phrase.value_withSign, Phrase.value, show Phrase.value _ = _ from h]

def unraised : Context (.phrase .signed) (.phrase .power) where
  before := []
  after := []
  fill := .unraised
  tokens_fill _ := (List.append_nil _).symm
  depth_fill h := h
  meaning_fill h := h

def base (exponent : Phrase .power) : Context (.phrase .signed) (.phrase .power) where
  before := []
  after := .power :: exponent.tokens
  fill base := .raised base exponent
  tokens_fill base := rfl
  depth_fill h := by
    simp only [Phrase.depth] at *
    omega
  meaning_fill h := congrArg (Float.pow · exponent.value) h

def exponent (base : Phrase .signed) : Context (.phrase .power) (.phrase .power) where
  before := base.tokens ++ [.power]
  after := []
  fill exponent := .raised base exponent
  tokens_fill exponent := by simp [Phrase.tokens]
  depth_fill h := by
    simp only [Phrase.depth] at *
    omega
  meaning_fill h := congrArg base.value.pow h

section
variable {level : Level}

def first (links : Links level) : Context (.phrase level.operand) (.phrase (.chain level)) where
  before := []
  after := links.tokens
  fill first := .chain first links
  tokens_fill first := rfl
  depth_fill h := by
    simp only [Phrase.depth] at *
    omega
  meaning_fill h := congrArg links.fold h

def later (first : Phrase level.operand) : Context (.links level) (.phrase (.chain level)) where
  before := first.tokens
  after := []
  fill links := .chain first links
  tokens_fill links := by simp [Phrase.tokens]
  depth_fill h := by
    simp only [Phrase.depth] at *
    omega
  meaning_fill h := congrFun h first.value

def right (operation : Operation level) (others : Links level) :
    Context (.phrase level.operand) (.links level) where
  before := [operation.token]
  after := others.tokens
  fill operand := .link operation operand others
  tokens_fill operand := rfl
  depth_fill h := by
    simp only [Links.depth] at *
    omega
  meaning_fill h := by
    funext left
    exact congrArg (fun value => others.fold (operation.apply left value)) h

def others (operation : Operation level) (operand : Phrase level.operand) :
    Context (.links level) (.links level) where
  before := operation.token :: operand.tokens
  after := []
  fill others := .link operation operand others
  tokens_fill others := by simp [Links.tokens]
  depth_fill h := by
    simp only [Links.depth] at *
    omega
  meaning_fill h := by
    funext left
    exact congrFun h (operation.apply left operand.value)

end

end Context

/-- A primary begins at a token of a tree, and stands with its sign in the gap of a context. -/
def Occurs (kind : Kind) (tree : kind.Tree) (front : List Token) (token : Token)
    (back : List Token) : Prop :=
  ∃ (context : Context (.phrase .signed) kind) (operand : Phrase .primary) (negative : Bool),
    context.fill (operand.withSign negative) = tree ∧
      front = context.before ++ signTokens negative ∧
      operand.tokens ++ context.after = token :: back

section
variable {front back : List Token} {token : Token}

theorem Occurs.within {inner outer : Kind} {part : inner.Tree}
    (occurs : Occurs inner part front token back) (layer : Context inner outer) :
    Occurs outer (layer.fill part) (layer.before ++ front) token (back ++ layer.after) := by
  obtain ⟨context, operand, negative, rfl, rfl, begins⟩ := occurs
  refine ⟨context.within layer, operand, negative, rfl, ?_, ?_⟩
  · exact (List.append_assoc _ _ _).symm
  · rw [← List.cons_append, ← begins]
    exact (List.append_assoc _ _ _).symm

theorem Occurs.behind {inner outer : Kind} {part : inner.Tree}
    (occurs : Occurs inner part front token back) (layer : Context inner outer)
    (last : layer.after = []) :
    Occurs outer (layer.fill part) (layer.before ++ front) token back := by
  have within := occurs.within layer
  rwa [last, List.append_nil] at within

/-- A token of two lists in a row is one of the first or one of the second. -/
theorem exists_of_append_eq {first second : List Token}
    (split : first ++ second = front ++ token :: back) :
    (∃ between, first = front ++ token :: between ∧ back = between ++ second) ∨
      ∃ between, front = first ++ between ∧ second = between ++ token :: back := by
  rcases List.append_eq_append_iff.mp split with ⟨between, left, right⟩ | ⟨between, left, right⟩
  · right
    exact ⟨between, left, right⟩
  · cases between with
    | nil =>
      right
      refine ⟨[], ?_, ?_⟩
      · simpa using left.symm
      · exact right.symm
    | cons next between =>
      left
      cases right
      exact ⟨between, left, rfl⟩

variable (starts : token.startsOperand = true)
include starts

/-- The sign before a primary is no part of it. -/
theorem exists_of_withSign_eq {operand : Phrase .primary} {negative : Bool}
    (split : (operand.withSign negative).tokens = front ++ token :: back) :
    ∃ between, front = signTokens negative ++ between ∧
      operand.tokens = between ++ token :: back := by
  rw [operand.tokens_withSign] at split
  rcases exists_of_append_eq split with ⟨between, inSign, -⟩ | found
  · have member : token ∈ signTokens negative := by simp [inSign]
    cases negative with
    | false => cases member
    | true =>
      rw [List.mem_singleton.mp member] at starts
      cases starts
  · exact found

theorem occurs_number {value : Float} {negative : Bool}
    (split : ((Phrase.number value).withSign negative).tokens = front ++ token :: back) :
    Occurs (.phrase .signed) ((Phrase.number value).withSign negative) front token back := by
  obtain ⟨between, rfl, own⟩ := exists_of_withSign_eq starts split
  obtain ⟨rfl, begins⟩ : between = [] ∧ [.number value] = token :: back := by
    cases between with
    | nil => exact ⟨rfl, own⟩
    | cons next between => simp [Phrase.tokens] at own
  exact ⟨.hole _, .number value, negative, rfl, List.append_nil _, begins⟩

/-- A primary in a group is the group itself or stands within it. -/
theorem occurs_group {inner : Sum} {negative : Bool}
    (inside : ∀ {front back}, inner.tokens = front ++ token :: back →
      Occurs (.phrase (.chain .additive)) inner front token back)
    (split : ((Phrase.group inner).withSign negative).tokens = front ++ token :: back) :
    Occurs (.phrase .signed) ((Phrase.group inner).withSign negative) front token back := by
  obtain ⟨between, rfl, own⟩ := exists_of_withSign_eq starts split
  cases between with
  | nil =>
    refine ⟨.hole _, .group inner, negative, rfl, ?_, ?_⟩
    · exact List.append_nil _
    · rw [← List.nil_append (token :: back), ← own]
      exact List.append_nil _
  | cons first between =>
    obtain ⟨rfl, rest⟩ := List.cons.inj own
    rcases exists_of_append_eq rest with ⟨later, within, rfl⟩ | ⟨later, -, closed⟩
    · have occurs := (inside within).within (.group negative)
      rwa [Context.group, List.append_assoc] at occurs
    · have member : token ∈ [Token.closing] := by simp [closed]
      rw [List.mem_singleton.mp member] at starts
      cases starts

mutual

/-- Wherever a primary can begin in a phrase, one does. -/
theorem Phrase.occurs {rank : Rank} (phrase : Phrase rank) (composite : rank ≠ .primary)
    {front back : List Token} (split : phrase.tokens = front ++ token :: back) :
    Occurs (.phrase rank) phrase front token back := by
  match phrase with
  | .number value => exact absurd rfl composite
  | .group inner => exact absurd rfl composite
  | .unsigned (.number value) => exact @occurs_number _ _ _ starts value false split
  | .negated (.number value) => exact @occurs_number _ _ _ starts value true split
  | .unsigned (.group inner) =>
    exact @occurs_group _ _ _ starts inner false (inner.occurs (by simp)) split
  | .negated (.group inner) =>
    exact @occurs_group _ _ _ starts inner true (inner.occurs (by simp)) split
  | .unraised base => exact (base.occurs (by simp) split).behind .unraised rfl
  | .raised base exponent =>
    rcases exists_of_append_eq split with ⟨between, left, rfl⟩ | ⟨between, rfl, right⟩
    · exact (base.occurs (by simp) left).within (.base exponent)
    · cases between with
      | nil =>
        cases right
        cases starts
      | cons sign between =>
        obtain ⟨rfl, inside⟩ := List.cons.inj right
        rw [List.append_cons]
        exact (exponent.occurs (by simp) inside).behind (.exponent base) rfl
  | @Phrase.chain level first links =>
    have composite : level.operand ≠ .primary := by cases level <;> simp [Level.operand]
    rcases exists_of_append_eq split with ⟨between, left, rfl⟩ | ⟨between, rfl, right⟩
    · exact (first.occurs composite left).within (.first links)
    · exact (links.occurs right).behind (.later first) rfl

theorem Links.occurs {level : Level} (links : Links level) {front back : List Token}
    (split : links.tokens = front ++ token :: back) :
    Occurs (.links level) links front token back := by
  match links with
  | .done => simp [Links.tokens] at split
  | .link operation operand others =>
    have composite : level.operand ≠ .primary := by cases level <;> simp [Level.operand]
    cases front with
    | nil => cases operation <;> cases split <;> cases starts
    | cons sign front =>
      obtain ⟨rfl, inside⟩ := List.cons.inj split
      rcases exists_of_append_eq inside with ⟨between, left, rfl⟩ | ⟨between, rfl, right⟩
      · exact (operand.occurs composite left).within (.right operation others)
      · exact (others.occurs right).behind (.others operation operand) rfl

end

end

end Grammar

namespace Evaluation

open Grammar

variable {front back : List Token} {value : Float}

/-- A primary with tokens around it that evaluate to a value stands in a context. -/
theorem exists_context_of_evaluateTokens (operand : Phrase .primary)
    (read : evaluateTokens (front ++ (operand.tokens ++ back)) = .ok value) :
    ∃ (context : Context (.phrase .signed) (.phrase (.chain .additive))) (negative : Bool),
      front = context.before ++ signTokens negative ∧ back = context.after := by
  obtain ⟨tree, same, -, -⟩ := exists_tree_of_evaluateTokens read
  obtain ⟨token, others, shape, starts⟩ := operand.primary_head
  rw [shape, List.cons_append] at same
  obtain ⟨context, found, negative, -, split, begins⟩ := tree.occurs starts (by simp) same
  rw [← List.cons_append, ← shape] at begins
  -- No two primaries begin alike, so the one that stands there is the one that was given.
  have unique := found.eq_of_tokens_append operand (fun _ _ => rfl) (fun _ _ => rfl) begins
  exact ⟨context, negative, split, unique.2.symm⟩

/-- Another operand of the same value fills a context to the same value, if there is room. -/
theorem evaluateTokens_fill (context : Context (.phrase .signed) (.phrase (.chain .additive)))
    (first second : Phrase .signed) (same : second.value = first.value)
    (read : evaluateTokens (context.before ++ (first.tokens ++ context.after)) = .ok value) :
    evaluateTokens (context.before ++ (second.tokens ++ context.after)) = .ok value ∨
      first.depth < second.depth ∧
        evaluateTokens (context.before ++ (second.tokens ++ context.after)) =
          .error (.tooDeep nestingLimit) := by
  have result (operand : Phrase .signed) :
      evaluateTokens (context.before ++ (operand.tokens ++ context.after)) =
        if (context.fill operand).depth ≤ nestingLimit then .ok (context.fill operand).value
        else .error (.tooDeep nestingLimit) := by
    rw [← evaluateTokens_tokens]
    exact congrArg evaluateTokens (context.tokens_fill operand).symm
  have kept : (context.fill second).value = (context.fill first).value :=
    context.meaning_fill same
  rw [result] at read
  split at read
  next room =>
    cases read
    by_cases shallow : second.depth ≤ first.depth
    · left
      have fits : (context.fill second).depth ≤ nestingLimit :=
        Nat.le_trans (context.depth_fill shallow) room
      rw [result, if_pos fits, kept]
    · rw [result, kept]
      split
      · left
        rfl
      · right
        exact ⟨by omega, rfl⟩
  · cases read

/-- A primary may be replaced by another of the same value, which is too deep only if it is deeper.
-/
theorem evaluateTokens_replace {first second : Phrase .primary}
    (same : second.value = first.value)
    (read : evaluateTokens (front ++ (first.tokens ++ back)) = .ok value) :
    evaluateTokens (front ++ (second.tokens ++ back)) = .ok value ∨
      first.depth < second.depth ∧
        evaluateTokens (front ++ (second.tokens ++ back)) = .error (.tooDeep nestingLimit) := by
  obtain ⟨context, negative, rfl, rfl⟩ := exists_context_of_evaluateTokens first read
  have placed (operand : Phrase .primary) :
      context.before ++ signTokens negative ++ (operand.tokens ++ context.after) =
        context.before ++ ((operand.withSign negative).tokens ++ context.after) := by
    simp [Phrase.tokens_withSign]
  rw [placed] at read ⊢
  rw [← first.depth_withSign negative, ← second.depth_withSign negative]
  apply evaluateTokens_fill context _ _ _ read
  simp [Phrase.value_withSign, same]

/-- What stands between parentheses may be replaced by its value. The parentheses may in turn be put
in the place of the value, where they are too deep or change nothing. -/
theorem evaluateTokens_group {inner : List Token} {part : Float}
    (grouped : evaluateTokens inner = .ok part) (front back : List Token) (value : Float) :
    (evaluateTokens (front ++ [.opening] ++ inner ++ [.closing] ++ back) = .ok value →
      evaluateTokens (front ++ [.number part] ++ back) = .ok value) ∧
    (evaluateTokens (front ++ [.number part] ++ back) = .ok value →
      evaluateTokens (front ++ [.opening] ++ inner ++ [.closing] ++ back) = .ok value ∨
        evaluateTokens (front ++ [.opening] ++ inner ++ [.closing] ++ back) =
          .error (.tooDeep nestingLimit)) := by
  obtain ⟨tree, rfl, -, rfl⟩ := exists_tree_of_evaluateTokens grouped
  have group : front ++ [.opening] ++ tree.tokens ++ [.closing] ++ back =
      front ++ ((Phrase.group tree).tokens ++ back) := by simp [Phrase.tokens]
  have number : front ++ [.number tree.value] ++ back =
      front ++ ((Phrase.number tree.value).tokens ++ back) := by simp [Phrase.tokens]
  have same : (Phrase.number tree.value).value = (Phrase.group tree).value := rfl
  rw [group, number]
  constructor
  · intro read
    rcases evaluateTokens_replace same read with replaced | ⟨deeper, -⟩
    · exact replaced
    · exact absurd deeper (Nat.not_lt_zero _)
  · intro read
    rcases evaluateTokens_replace same.symm read with replaced | ⟨-, failed⟩
    · left
      exact replaced
    · right
      exact failed

/-- The group of `-(2*3)^2` and its value are put in each other's place, under a sign and a power. -/
theorem evaluateTokens_group_negatedProduct :
    let two := Float.ofBits 0x4000000000000000
    let three := Float.ofBits 0x4008000000000000
    let inner : List Token := [.number two, .times, .number three]
    let back : List Token := [.power, .number two]
    evaluateTokens inner = .ok (two * three) ∧
      evaluateTokens ([.minus] ++ [.opening] ++ inner ++ [.closing] ++ back) =
        .ok ((-(two * three)).pow two) ∧
      evaluateTokens ([.minus] ++ [.number (two * three)] ++ back) =
        .ok ((-(two * three)).pow two) := by
  intro two three inner back
  let number (value : Float) : Phrase .power := .unraised (.unsigned (.number value))
  let product : Sum := .chain (.chain (number two) (.link .times (number three) .done)) .done
  let whole (base : Phrase .primary) : Sum :=
    .chain (.chain (.raised (.negated base) (number two)) .done) .done
  have grouped : evaluateTokens inner = .ok (two * three) := evaluateTokens_tokens product
  have group : evaluateTokens ([.minus] ++ [.opening] ++ inner ++ [.closing] ++ back) =
      .ok ((-(two * three)).pow two) := evaluateTokens_tokens (whole (.group product))
  have value : evaluateTokens ([.minus] ++ [.number (two * three)] ++ back) =
      .ok ((-(two * three)).pow two) := evaluateTokens_tokens (whole (.number (two * three)))
  obtain ⟨replaced, restored⟩ := evaluateTokens_group grouped [.minus] back
    ((-(two * three)).pow two)
  refine ⟨grouped, (restored value).resolve_right ?_, replaced group⟩
  rw [group]
  nofun

end Evaluation

end PocketCalc
