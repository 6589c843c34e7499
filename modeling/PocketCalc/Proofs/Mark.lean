import PocketCalc.Proofs.DisplayText
import PocketCalc.Proofs.GlyphPass
import PocketCalc.Proofs.Seam

/-!
# Marks

A mark is an operator or a parenthesis as it is typed, a glyph of one character included. It is a
token of its own wherever it stands, but for two multiplications in a row, and no character of a
displayed number is one but the sign.
-/
namespace PocketCalc

namespace Token

def isOperation : Token → Bool
  | .plus | .minus | .times | .over | .power => true
  | _ => false

def isClosing : Token → Bool
  | .closing => true
  | _ => false

def isNumber : Token → Bool
  | .number _ => true
  | _ => false

end Token

/-- The token of a mark. -/
def Token.ofMark? : Char → Option Token
  | '×' => some .times
  | '÷' => some .over
  | character => Token.ofOperator? character

/-- The token of the mark that a text begins with. -/
def firstMark? (text : Text) : Option Token :=
  text.head?.bind Token.ofMark?

/-- The token of the mark that a text ends in. -/
def lastMark? (text : Text) : Option Token :=
  text.getLast?.bind Token.ofMark?

theorem ofOperator?_writtenSingle (mark : Char) :
    Token.ofOperator? (writtenSingle mark) = Token.ofMark? mark := by
  unfold Token.ofMark?
  split
  · rfl
  · rfl
  next multiplied divided =>
    rw [writtenSingle, if_neg multiplied, if_neg divided]

theorem glyphPass_ne_nil {text : Text} (some : text ≠ []) : glyphPass text ≠ [] := by
  unfold glyphPass
  split <;> simp_all

/-- Only a multiplication is written with a `*` at its head. -/
theorem firstMark?_of_glyphPass {text : Text} (h : (glyphPass text).head? = some '*') :
    firstMark? text = some .times := by
  unfold glyphPass at h
  split at h
  · exact absurd (Option.some.inj h) (by decide)
  next character rest _ =>
    have written : writtenSingle character = '*' := Option.some.inj h
    have known := ofOperator?_writtenSingle character
    rw [written] at known
    exact known.symm
  · cases h

/-- Only a multiplication is written with a `*` at its end. -/
theorem lastMark?_of_glyphPass {text : Text} (h : (glyphPass text).getLast? = some '*') :
    lastMark? text = some .times := by
  fun_induction glyphPass text with
  | case1 rest ih =>
    rw [List.getLast?_cons] at h
    cases last : (glyphPass rest).getLast? with
    | none =>
      rw [last] at h
      exact absurd h (by decide)
    | some character =>
      rw [last] at h
      have times := ih (last.trans h)
      unfold lastMark? at *
      cases ending : rest.getLast? with
      | none =>
        rw [ending] at times
        cases times
      | some mark => simpa [List.getLast?_cons, ending] using times
  | case2 character rest apart ih =>
    cases rest with
    | nil =>
      have written : writtenSingle character = '*' := by simpa [glyphPass] using h
      have known := ofOperator?_writtenSingle character
      rw [written] at known
      exact known.symm
    | cons next others =>
      rw [List.getLast?_cons_of_ne_nil (glyphPass_ne_nil (List.cons_ne_nil _ _))] at h
      unfold lastMark?
      rw [List.getLast?_cons_of_ne_nil (List.cons_ne_nil _ _)]
      exact ih h
  | case3 => cases h

theorem tokenize_nil : tokenize [] = .ok [] := by
  simp [tokenize, normalize_eq_glyphPass, glyphPass, scan]

/-- A mark is a token of its own wherever it stands, but for two multiplications in a row. -/
theorem tokenize_mark {front back : Text} {mark : Char} {token : Token}
    (known : Token.ofMark? mark = some token)
    (before : token = .times → lastMark? front ≠ some .times)
    (after : token = .times → firstMark? back ≠ some .times) :
    tokenize (front ++ mark :: back) =
      joinTokens (tokenize front) ((tokenize back).map (token :: ·)) := by
  have written : Token.ofOperator? (writtenSingle mark) = some token :=
    (ofOperator?_writtenSingle mark).trans known
  have single : writtenSingle mark = '*' → token = .times := by
    intro star
    rw [star] at written
    exact (Option.some.inj written).symm
  have left : ¬ cutsGlyph front (mark :: back) := by
    rintro ⟨_, second⟩
    cases second
    cases known
  have right : ¬ (mark = 'x' ∧ back.head? = some 'ʸ') := by
    rintro ⟨rfl, _⟩
    cases known
  have apart : BeginsApart (writtenSingle mark :: glyphPass back) := by
    rintro character ⟨⟩
    simp [isDelimiter, isOperator, written]
  have uncutBefore : ¬ cutsPower (glyphPass front) (writtenSingle mark :: glyphPass back) := by
    rintro ⟨last, first⟩
    exact before (single (Option.some.inj first)) (lastMark?_of_glyphPass last)
  have uncutAfter : ¬ cutsPower [writtenSingle mark] (glyphPass back) := by
    rintro ⟨first, second⟩
    exact after (single (Option.some.inj first)) (firstMark?_of_glyphPass second)
  unfold tokenize
  simp only [normalize_eq_glyphPass]
  rw [glyphPass_append left, glyphPass_cons right, scan_append apart uncutBefore,
    scan_operator written uncutAfter]

theorem tokenize_mark_start {back : Text} {mark : Char} {token : Token}
    (known : Token.ofMark? mark = some token)
    (after : token = .times → firstMark? back ≠ some .times) :
    tokenize (mark :: back) = (tokenize back).map (token :: ·) := by
  have before : token = .times → lastMark? [] ≠ some .times := by
    rintro _ ⟨⟩
  have marked := tokenize_mark known before after
  rw [tokenize_nil, joinTokens_ok_nil, List.nil_append] at marked
  exact marked

theorem any_isOperation_ofMark? (character : Char) :
    (Token.ofMark? character).any Token.isOperation = decide (character ∈ operators) := by
  unfold Token.ofMark?
  split
  · rfl
  · rfl
  next multiplied divided =>
    unfold Token.ofOperator?
    split
    case h_8 => simp_all [operators]
    all_goals rfl

theorem mem_operators_iff {character : Char} {token : Token}
    (known : Token.ofMark? character = some token) :
    character ∈ operators ↔ token.isOperation = true := by
  have operator := any_isOperation_ofMark? character
  rw [known, Option.any_some] at operator
  simp [operator]

theorem exists_ofMark?_of_mem {character : Char} (h : character ∈ operators) :
    ∃ token, Token.ofMark? character = some token ∧ token.isOperation = true := by
  have operation := any_isOperation_ofMark? character
  rw [decide_eq_true h] at operation
  exact (Option.any_eq_true _ _).mp operation

theorem parenthesis_of_ofMark? {character : Char} {token : Token}
    (known : Token.ofMark? character = some token) (h : token.isOperation = false) :
    character = '(' ∧ token = .opening ∨ character = ')' ∧ token = .closing := by
  unfold Token.ofMark? Token.ofOperator? at known
  repeat' split at known
  all_goals cases known
  all_goals first | exact Or.inl ⟨rfl, rfl⟩ | exact Or.inr ⟨rfl, rfl⟩ | cases h

theorem isNumber_of_ofMark? {character : Char} {token : Token}
    (known : Token.ofMark? character = some token) : token.isNumber = false := by
  unfold Token.ofMark? Token.ofOperator? at known
  repeat' split at known
  all_goals cases known
  all_goals rfl

theorem eq_of_ofMark?_minus {character : Char}
    (known : Token.ofMark? character = some .minus) : character = '-' := by
  unfold Token.ofMark? Token.ofOperator? at known
  repeat' split at known
  all_goals first | rfl | cases known

theorem ofMark?_eq_closing_iff (character : Char) :
    Token.ofMark? character = some .closing ↔ character = ')' := by
  constructor
  · intro known
    rcases parenthesis_of_ofMark? known rfl with ⟨_, other⟩ | ⟨same, _⟩
    · cases other
    · exact same
  · rintro rfl
    rfl

theorem endsInOperator_eq (text : Text) :
    Calculator.endsInOperator text = (lastMark? text).any Token.isOperation := by
  unfold Calculator.endsInOperator lastMark?
  cases text.getLast? with
  | none => rfl
  | some character => exact (any_isOperation_ofMark? character).symm

theorem lastMark?_eq_closing_iff (text : Text) :
    lastMark? text = some .closing ↔ text.getLast? = some ')' := by
  unfold lastMark?
  cases text.getLast? with
  | none => simp
  | some character => simpa using ofMark?_eq_closing_iff character

theorem ofMark?_ne_times_of_isShown {character : Char} (h : isShown character = true) :
    Token.ofMark? character ≠ some .times := by
  intro times
  have mark : character ∈ ['+', '*', '/', '^', '(', ')', '×', '÷', 'x', 'ʸ'] := by
    unfold Token.ofMark? at times
    split at times
    · decide
    · cases times
    · rw [eq_of_ofOperator?_times times]
      decide
  rw [not_isShown_of_mark mark] at h
  cases h

theorem Shown.firstMark?_ne_times {text : Text} (h : Shown text) :
    firstMark? text ≠ some .times := by
  unfold firstMark?
  cases text with
  | nil => simp
  | cons character rest => exact ofMark?_ne_times_of_isShown (h character (List.mem_cons_self))

theorem Shown.lastMark?_append_ne_times {text : Text} (h : Shown text) (typed : text ≠ [])
    (front : Text) : lastMark? (front ++ text) ≠ some .times := by
  unfold lastMark?
  rw [List.getLast?_append, List.getLast?_eq_some_getLast typed]
  exact ofMark?_ne_times_of_isShown (h _ (List.getLast_mem typed))

end PocketCalc
