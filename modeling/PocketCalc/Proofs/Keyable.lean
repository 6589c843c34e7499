import PocketCalc.Key.Line
import PocketCalc.Proofs.Due
import PocketCalc.Proofs.Literal

/-!
# Expressions that can be typed

A keyable expression is a sentence spelled with literals and marks in which a sign stands only at
the start or after an opening parenthesis, and a literal that looks like an untouched operand only
at the end. Every character of it is a key, and its text is read as its own tokens.
-/
namespace PocketCalc

open Pushdown (Due)

inductive Lexeme where
  | number (literal : Literal)
  | mark (character : Char) (token : Token) (known : Token.ofMark? character = some token)

namespace Lexeme

def text : Lexeme → Text
  | .number literal => literal.text
  | .mark character _ _ => [character]

def token : Lexeme → Token
  | .number literal => .number literal.value
  | .mark _ token _ => token

def isBareZero : Lexeme → Bool
  | .number literal => literal.isBareZero
  | .mark _ _ _ => false

def keys : Lexeme → List Key
  | .number literal => literal.text.map .digit
  | .mark character token _ =>
    if token.isOperation then [.operator character] else [.parenthesis character]

end Lexeme

/-- The text of lexemes, without spaces between them. -/
def spelling (lexemes : List Lexeme) : Text :=
  lexemes.flatMap Lexeme.text

def typing (lexemes : List Lexeme) : List Key :=
  lexemes.flatMap Lexeme.keys

/-- A minus that stands after an operation is a sign. No such sign is among the tokens. -/
def SignsApart (tokens : List Token) : Prop :=
  ∀ pair ∈ tokens.zip tokens.tail, pair.2 = .minus → pair.1.isOperation = false

instance (tokens : List Token) : Decidable (SignsApart tokens) :=
  inferInstanceAs (Decidable (∀ pair ∈ tokens.zip tokens.tail, _))

structure Keyable (lexemes : List Lexeme) : Prop where
  sentence : ∃ tree : Grammar.Sum, tree.tokens = lexemes.map Lexeme.token
  signs : SignsApart (lexemes.map Lexeme.token)
  zeros : ∀ lexeme ∈ lexemes.dropLast, lexeme.isBareZero = false

theorem mem_zip_tail (before : List Token) (last next : Token) (after : List Token) :
    (last, next) ∈
      (before ++ last :: next :: after).zip (before ++ last :: next :: after).tail := by
  induction before with
  | nil => exact List.mem_cons_self
  | cons token before ih =>
    rw [List.cons_append, List.tail_cons]
    cases shape : before ++ last :: next :: after with
    | nil => simp at shape
    | cons first others =>
      rw [shape] at ih
      exact List.mem_cons_of_mem _ ih

theorem SignsApart.of_append {front back : List Token} {last next : Token}
    (h : SignsApart (front ++ back)) (ending : front.getLast? = some last)
    (following : back.head? = some next) (minus : next = .minus) : last.isOperation = false := by
  obtain ⟨before, rfl⟩ := List.getLast?_eq_some_iff.mp ending
  obtain ⟨after, rfl⟩ := List.head?_eq_some_iff.mp following
  rw [List.append_assoc, List.singleton_append] at h
  exact h (last, next) (mem_zip_tail before last next after) minus

theorem signsApart_cons {token : Token} {tokens : List Token}
    (first : ∀ next ∈ tokens.head?, next = .minus → token.isOperation = false)
    (others : SignsApart tokens) : SignsApart (token :: tokens) := by
  cases tokens with
  | nil => exact List.forall_mem_nil _
  | cons next tokens => exact List.forall_mem_cons.mpr ⟨first next rfl, others⟩

namespace Key

theorem spelled?_append {first second : Text} {keys keys' : List Key}
    (left : spelled? first = some keys) (right : spelled? second = some keys') :
    spelled? (first ++ second) = some (keys ++ keys') := by
  induction first generalizing keys with
  | nil =>
    cases left
    exact right
  | cons character rest ih =>
    rw [spelled?] at left
    split at left
    next key others named spelled =>
      cases left
      rw [List.cons_append, spelled?, named, ih spelled]
      rfl
    · cases left

theorem ofName?_numeric {character : Char} (h : isNumeric character = true) :
    ofName? [character] = some (.digit character) := by
  have apart : ∀ entry ∈ names, entry.1.head?.any isNumeric = false := by decide
  have unnamed : names.lookup [character] = none := by
    rw [List.lookup_eq_none_iff]
    intro entry member
    have quiet := apart entry member
    rw [bne_iff_ne]
    intro same
    rw [← same] at quiet
    simp [h] at quiet
  unfold ofName?
  rw [unnamed]
  simp [ofCharacter?, h]

/-- Every mark has its key. -/
theorem ofName?_mark {character : Char} {token : Token}
    (known : Token.ofMark? character = some token) :
    ofName? [character] =
      some (if token.isOperation then .operator character else .parenthesis character) := by
  have all : ['×', '÷', '+', '-', '*', '/', '^', '(', ')'].all (fun mark =>
      ofName? [mark] == some (if (Token.ofMark? mark).any Token.isOperation then .operator mark
        else .parenthesis mark)) = true := by decide
  have member : character ∈ ['×', '÷', '+', '-', '*', '/', '^', '(', ')'] := by
    unfold Token.ofMark? at known
    split at known
    · decide
    · decide
    · have operator : isOperator character = true := by simp [isOperator, known]
      exact List.mem_cons_of_mem _ (List.mem_cons_of_mem _ (mem_of_isOperator operator))
  have named := beq_iff_eq.mp (List.all_eq_true.mp all character member)
  rw [known] at named
  exact named

theorem spelled?_numeric {text : Text}
    (numeric : ∀ character ∈ text, isNumeric character = true) :
    spelled? text = some (text.map .digit) := by
  induction text with
  | nil => rfl
  | cons character rest ih =>
    obtain ⟨first, others⟩ := List.forall_mem_cons.mp numeric
    rw [spelled?, ofName?_numeric first, ih others]
    rfl

theorem spelled?_text (lexeme : Lexeme) : spelled? lexeme.text = some lexeme.keys := by
  cases lexeme with
  | number literal => exact spelled?_numeric literal.isNumeric_of_mem_text
  | mark character token known =>
    rw [Lexeme.text, Lexeme.keys, spelled?, ofName?_mark known]
    cases token.isOperation <;> rfl

/-- Every character of an expression is a key of its own. -/
theorem spelled?_spelling (lexemes : List Lexeme) :
    spelled? (spelling lexemes) = some (typing lexemes) := by
  induction lexemes with
  | nil => rfl
  | cons lexeme lexemes ih => exact spelled?_append (spelled?_text lexeme) ih

end Key

theorem Literal.firstMark?_append (literal : Literal) (rest : Text) :
    firstMark? (literal.text ++ rest) ≠ some .times := by
  have shown := literal.shown_text
  cases spelled : literal.text with
  | nil => exact absurd spelled literal.text_ne_nil
  | cons character others =>
    rw [spelled] at shown
    exact ofMark?_ne_times_of_isShown (shown character List.mem_cons_self)

/-- A literal is read on its own before a mark. -/
theorem Literal.tokenize_append (literal : Literal) {mark : Char} {token : Token}
    (known : Token.ofMark? mark = some token) (rest : Text) :
    tokenize (literal.text ++ mark :: rest) =
      (tokenize (mark :: rest)).map (.number literal.value :: ·) := by
  have written : Token.ofOperator? (writtenSingle mark) = some token :=
    (ofOperator?_writtenSingle mark).trans known
  have single : glyphPass (mark :: rest) = writtenSingle mark :: glyphPass rest := by
    refine glyphPass_cons ?_
    rintro ⟨rfl, _⟩
    cases known
  have whole : ¬ cutsGlyph literal.text (mark :: rest) := by
    rintro ⟨_, second⟩
    cases second
    cases known
  have stop : ∀ next ∈ (glyphPass (mark :: rest)).head?, literal.takes next = false := by
    rw [single]
    intro next member
    obtain rfl : writtenSingle mark = next := Option.some.inj member
    obtain ⟨digit, point⟩ := @not_numeric_of_isDelimiter (writtenSingle mark) (by
      simp [isDelimiter, isOperator, written])
    simp [Literal.takes, digit, point]
  rw [tokenize, normalize_append whole, literal.shown_text.normalize, normalize_eq_glyphPass,
    literal.scan_append stop, tokenize, normalize_eq_glyphPass]

theorem firstMark?_spelling {lexemes : List Lexeme}
    (walk : Due.operand.after (lexemes.map Lexeme.token) = some .operator) :
    firstMark? (spelling lexemes) ≠ some .times := by
  cases lexemes with
  | nil => cases walk
  | cons lexeme lexemes =>
    cases lexeme with
    | number literal => exact literal.firstMark?_append _
    | mark character token known =>
      intro times
      have same : token = .times := Option.some.inj (known.symm.trans times)
      subst same
      cases walk

/-- The text of a sentence is read as its own tokens. -/
theorem tokenize_spelling {due : Due} {lexemes : List Lexeme}
    (walk : due.after (lexemes.map Lexeme.token) = some .operator) :
    tokenize (spelling lexemes) = .ok (lexemes.map Lexeme.token) := by
  -- Along the lexemes, whatever is due: no two literals meet and no two multiplications, so each
  -- seam is one at which the text may be cut.
  induction lexemes generalizing due with
  | nil => exact tokenize_nil
  | cons lexeme lexemes ih =>
    rw [List.map_cons, Due.after_cons] at walk
    obtain ⟨next, followed, walk⟩ := Option.bind_eq_some_iff.mp walk
    have later : tokenize (spelling lexemes) = .ok (lexemes.map Lexeme.token) := ih walk
    cases lexeme with
    | number literal =>
      obtain rfl : next = .operator := (Due.next_eq_operator_iff followed).mpr rfl
      cases lexemes with
      | nil =>
        rw [spelling, List.flatMap_cons, List.flatMap_nil, List.append_nil]
        exact literal.tokenize_text
      | cons second others =>
        cases second with
        | number literal' => cases walk
        | mark character token known =>
          have apart := literal.tokenize_append known (spelling others)
          exact apart.trans (congrArg (Except.map _) later)
    | mark character token known =>
      have after : token = .times → firstMark? (spelling lexemes) ≠ some .times := by
        rintro rfl
        obtain rfl : next = .operand := by
          cases due <;> cases followed
          rfl
        exact firstMark?_spelling walk
      have marked := tokenize_mark_start known after
      rw [later] at marked
      exact marked

theorem Keyable.walk {lexemes : List Lexeme} (keyable : Keyable lexemes) :
    Due.operand.after (lexemes.map Lexeme.token) = some .operator := by
  obtain ⟨tree, same⟩ := keyable.sentence
  rw [← same]
  exact tree.after_tokens

end PocketCalc
