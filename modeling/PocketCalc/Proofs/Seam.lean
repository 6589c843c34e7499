import PocketCalc.Expression.Scan

/-!
# Seams between tokens

A text may be cut before a delimiter, which is a blank, an operator or a parenthesis: no token runs
across such a cut but a `**`. Scanning the whole is then scanning both parts, and the first fault
of the front part stays what it is.
-/
namespace PocketCalc

def isOperator (character : Char) : Bool :=
  (Token.ofOperator? character).isSome

def isDelimiter (character : Char) : Bool :=
  isBlank character || isOperator character

/-- A text that is empty or begins with a delimiter. -/
def BeginsApart (text : Text) : Prop :=
  ∀ character ∈ text.head?, isDelimiter character = true

/-- Where the two signs of a `**` stand on either side of a cut. -/
def cutsPower (front back : Text) : Prop :=
  front.getLast? = some '*' ∧ back.head? = some '*'

theorem mem_of_isOperator {character : Char} (h : isOperator character = true) :
    character ∈ ['+', '-', '*', '/', '^', '(', ')'] := by
  unfold isOperator Token.ofOperator? at h
  split at h
  case h_8 => cases h
  all_goals simp

theorem eq_of_ofOperator?_times {character : Char}
    (h : Token.ofOperator? character = some .times) : character = '*' := by
  unfold Token.ofOperator? at h
  split at h <;> first | rfl | cases h

theorem not_isLetter_of_isDelimiter {character : Char} (h : isDelimiter character = true) :
    isLetter character = false := by
  rcases Bool.or_eq_true_iff.mp h with blank | operator
  · exact not_isLetter_of_isBlank blank
  · have all : ['+', '-', '*', '/', '^', '(', ')'].all (!isLetter ·) = true := by decide
    simpa using List.all_eq_true.mp all character (mem_of_isOperator operator)

theorem not_isDigit_of_isBlank {character : Char} (h : isBlank character = true) :
    character.isDigit = false := by
  have apart : ∀ range ∈ blankRanges, range.2 < 48 ∨ 57 < range.1 := by decide
  obtain ⟨range, member, inside⟩ := List.any_eq_true.mp h
  simp only [Bool.and_eq_true, decide_eq_true_eq] at inside
  rw [Bool.eq_false_iff]
  intro digit
  have bounds : 48 ≤ character.toNat ∧ character.toNat ≤ 57 := Char.isDigit_iff_toNat.mp digit
  rcases apart range member with below | above <;> omega

theorem not_numeric_of_isDelimiter {character : Char} (h : isDelimiter character = true) :
    character.isDigit = false ∧ character ≠ '.' := by
  rcases Bool.or_eq_true_iff.mp h with blank | operator
  · refine ⟨not_isDigit_of_isBlank blank, ?_⟩
    rintro rfl
    exact absurd blank (by decide)
  · have all : ['+', '-', '*', '/', '^', '(', ')'].all
        (fun sign => !sign.isDigit && sign != '.') = true := by decide
    simpa using List.all_eq_true.mp all character (mem_of_isOperator operator)

theorem not_continuesStray_of_isDelimiter {character : Char} (h : isDelimiter character = true) :
    continuesStray character = false := by
  have either : isBlank character || (Token.ofOperator? character).isSome := h
  simp [continuesStray, either]

section
variable {predicate : Char → Bool} {rest : Text}

theorem takeWhile_eq_self {text : Text} (all : ∀ character ∈ text, predicate character = true) :
    text.takeWhile predicate = text := by
  rw [← List.append_nil text, List.takeWhile_append_of_pos all, List.takeWhile_nil]

theorem dropWhile_eq_nil {text : Text} (all : ∀ character ∈ text, predicate character = true) :
    text.dropWhile predicate = [] := by
  rw [← List.append_nil text, List.dropWhile_append_of_pos all, List.dropWhile_nil]

theorem takeWhile_append_stop (stop : ∀ character ∈ rest.head?, predicate character = false)
    (text : Text) : (text ++ rest).takeWhile predicate = text.takeWhile predicate := by
  induction text with
  | nil =>
    cases rest with
    | nil => rfl
    | cons character others => simp [stop character rfl]
  | cons character others ih =>
    rw [List.cons_append, List.takeWhile_cons, List.takeWhile_cons, ih]

theorem dropWhile_append_stop (stop : ∀ character ∈ rest.head?, predicate character = false)
    (text : Text) : (text ++ rest).dropWhile predicate = text.dropWhile predicate ++ rest := by
  induction text with
  | nil =>
    cases rest with
    | nil => rfl
    | cons character others => simp [stop character rfl]
  | cons character others ih =>
    rw [List.cons_append, List.dropWhile_cons, List.dropWhile_cons, ih]
    split <;> rfl

end

theorem Numeral.span_append {rest : Text}
    (stop : ∀ character ∈ rest.head?, character.isDigit = false ∧ character ≠ '.') (text : Text) :
    Numeral.span (text ++ rest) = ((Numeral.span text).1, (Numeral.span text).2 ++ rest) := by
  have digits : ∀ character ∈ rest.head?, Char.isDigit character = false :=
    fun character member => (stop character member).1
  unfold Numeral.span
  rw [dropWhile_append_stop digits, takeWhile_append_stop digits]
  cases shape : text.dropWhile Char.isDigit with
  | nil =>
    cases rest with
    | nil => rfl
    | cons character others =>
      rw [List.nil_append]
      split
      next same =>
        cases same
        exact absurd rfl (stop '.' rfl).2
      · rfl
  | cons character others =>
    by_cases point : character = '.'
    · subst point
      simp only [List.cons_append, takeWhile_append_stop digits, dropWhile_append_stop digits]
    · simp [point]

theorem Numeral.span_suffix {character : Char} {text : Text}
    (numeric : (character.isDigit || character == '.') = true) :
    (Numeral.span (character :: text)).2 <:+ text := by
  have inside : ∀ text : Text, (Numeral.span text).2 <:+ text := by
    intro text
    have whole : text.dropWhile Char.isDigit <:+ text := List.dropWhile_suffix _
    unfold Numeral.span
    split
    next rest shape =>
      rw [shape] at whole
      exact (List.dropWhile_suffix _).trans ((List.suffix_cons _ _).trans whole)
    · exact whole
  by_cases digit : character.isDigit = true
  · have same : (Numeral.span (character :: text)).2 = (Numeral.span text).2 := by
      unfold Numeral.span
      rw [List.dropWhile_cons_of_pos digit]
      split <;> rfl
    exact same ▸ inside text
  · have point : character = '.' := by simpa [digit] using numeric
    subst point
    exact List.dropWhile_suffix _

/-- Before a seam the head of a text is read as if nothing followed it. -/
theorem lexeme_append {character : Char} {text rest : Text} (apart : BeginsApart rest)
    (whole : ¬ cutsPower (character :: text) rest) :
    lexeme character (text ++ rest) =
      (lexeme character text).map fun (token, later) => (token, later ++ rest) := by
  have letters : ∀ stop ∈ rest.head?, isLetter stop = false :=
    fun stop member => not_isLetter_of_isDelimiter (apart stop member)
  have strays : ∀ stop ∈ rest.head?, continuesStray stop = false :=
    fun stop member => not_continuesStray_of_isDelimiter (apart stop member)
  have digits : ∀ stop ∈ rest.head?, stop.isDigit = false ∧ stop ≠ '.' :=
    fun stop member => not_numeric_of_isDelimiter (apart stop member)
  unfold lexeme
  dsimp only
  by_cases letter : isLetter character = true
  · rw [if_pos letter, if_pos letter, takeWhile_append_stop letters, dropWhile_append_stop letters]
    cases wordValue? (character :: text.takeWhile isLetter) <;> rfl
  rw [if_neg letter, if_neg letter]
  by_cases numeric : (character.isDigit || character == '.') = true
  · rw [if_pos numeric, if_pos numeric, ← List.cons_append, Numeral.span_append digits]
    dsimp only
    split <;> rfl
  rw [if_neg numeric, if_neg numeric, takeWhile_append_stop strays]
  -- Only a `*` looks at the character behind it, which may be the first one beyond the seam.
  split
  next times =>
    cases text with
    | nil =>
      have single := eq_of_ofOperator?_times times
      have other : rest.head? ≠ some '*' := fun second => whole ⟨by simp [single], second⟩
      simp [other, Except.map]
    | cons next others =>
      by_cases doubled : next = '*' <;> simp [doubled, Except.map]
  · rfl
  · split <;> rfl

theorem lexeme_suffix {character : Char} {text later : Text} {token : Option Token}
    (h : lexeme character text = .ok (token, later)) : later <:+ text := by
  unfold lexeme at h
  dsimp only at h
  split at h
  · split at h
    · cases h
      exact List.dropWhile_suffix _
    · contradiction
  · split at h
    next numeric =>
      split at h
      · contradiction
      · cases h
        exact Numeral.span_suffix numeric
    · split at h
      · split at h
        · cases h
          exact List.tail_suffix _
        · cases h
          exact List.suffix_refl _
      · cases h
        exact List.suffix_refl _
      · split at h
        · cases h
          exact List.suffix_refl _
        · contradiction

theorem scan_cons (character : Char) (text : Text) :
    scan (character :: text) =
      (lexeme character text).bind fun (token, later) => (scan later).map (token.toList ++ ·) := by
  rw [scan]
  split
  next error failed =>
    simp only [failed]
    rfl
  next token later found =>
    simp only [found]
    rfl

/-- What two parts of a text give together: the tokens of both, or the first fault. -/
def joinTokens (front back : Except ExpressionError (List Token)) :
    Except ExpressionError (List Token) :=
  front.bind fun tokens => back.map (tokens ++ ·)

theorem joinTokens_map (first : List Token) (front back : Except ExpressionError (List Token)) :
    joinTokens (front.map (first ++ ·)) back = (joinTokens front back).map (first ++ ·) := by
  cases front with
  | error error => rfl
  | ok tokens => cases back <;> simp [joinTokens, Except.bind, Except.map]

theorem joinTokens_ok_nil (back : Except ExpressionError (List Token)) :
    joinTokens (.ok []) back = back := by
  cases back <;> rfl

theorem joinTokens_assoc (front middle back : Except ExpressionError (List Token)) :
    joinTokens (joinTokens front middle) back = joinTokens front (joinTokens middle back) := by
  cases front with
  | error error => rfl
  | ok first =>
    cases middle with
    | error error => rfl
    | ok second => cases back <;> simp [joinTokens, Except.bind, Except.map]

theorem joinTokens_toOption (front back : Except ExpressionError (List Token)) :
    (joinTokens front back).toOption =
      front.toOption.bind fun tokens => back.toOption.map (tokens ++ ·) := by
  cases front with
  | error error => rfl
  | ok first => cases back <;> rfl

/-- Scanning may be cut before a delimiter that does not complete a `**`. -/
theorem scan_append {text rest : Text} (apart : BeginsApart rest) (whole : ¬ cutsPower text rest) :
    scan (text ++ rest) = joinTokens (scan text) (scan rest) := by
  fun_induction scan text with
  | case1 =>
    rw [List.nil_append]
    cases scan rest <;> rfl
  | case2 character text error failed =>
    rw [List.cons_append, scan_cons, lexeme_append apart whole, failed]
    rfl
  | case3 character text token later found _ ih =>
    have uncut : ¬ cutsPower later rest := by
      rintro ⟨last, head⟩
      obtain ⟨front, rfl⟩ := lexeme_suffix found
      have ending : (character :: (front ++ later)).getLast? = some '*' := by
        rw [← List.cons_append, List.getLast?_append, last]
        rfl
      exact whole ⟨ending, head⟩
    rw [List.cons_append, scan_cons, lexeme_append apart whole, found, joinTokens_map, ← ih uncut]
    rfl

/-- An operator or a parenthesis is a token of its own where no `**` begins. -/
theorem scan_operator {sign : Char} {token : Token} (known : Token.ofOperator? sign = some token)
    {rest : Text} (whole : ¬ cutsPower [sign] rest) :
    scan (sign :: rest) = (scan rest).map (token :: ·) := by
  have operator : isOperator sign = true := by simp [isOperator, known]
  have apart : isDelimiter sign = true := by simp [isDelimiter, operator]
  have read : lexeme sign rest = .ok (some token, rest) := by
    have quiet := not_isLetter_of_isDelimiter apart
    obtain ⟨digit, point⟩ := not_numeric_of_isDelimiter apart
    unfold lexeme
    dsimp only
    rw [if_neg (by simp [quiet]), if_neg (by simp [digit, point]), known]
    split
    next times =>
      cases times
      have single := eq_of_ofOperator?_times known
      rw [if_neg fun second => whole ⟨by simp [single], second⟩]
    next token' other same =>
      cases same
      rfl
    next same => cases same
  rw [scan_cons, read]
  rfl

end PocketCalc
