import PocketCalc.Proofs.ReadBack

/-!
# Renderings of token lists

A list of tokens can be written in many ways. An operator has up to three signs, a finite number
has every literal of its value, and blanks may stand anywhere between tokens. Where one token would
run into the next, a blank has to part them. The tokenizer takes every such text for the tokens that
it was written for.
-/
namespace PocketCalc

open Binary64 (parts)

/-- The signs that an operator or a parenthesis is written with. -/
def Token.signs : Token → List Text
  | .plus => ["+".toList]
  | .minus => ["-".toList]
  | .times => ["*".toList, "×".toList]
  | .over => ["/".toList, "÷".toList]
  | .power => ["^".toList, "xʸ".toList, "**".toList]
  | .opening => ["(".toList]
  | .closing => [")".toList]
  | .number _ => []

/-- Whether a token is no number with a sign, which takes two tokens to write. -/
def Token.isUnsigned : Token → Bool
  | .number value =>
    match parts value with
    | .notANumber => true
    | .infinite negative => !negative
    | .finite negative _ => !negative
  | _ => true

inductive NumberWord where
  | infinity | notANumber
  deriving DecidableEq, Repr

namespace NumberWord

def text : NumberWord → Text
  | .infinity => "Infinity".toList
  | .notANumber => "NaN".toList

def value : NumberWord → Float
  | .infinity => Binary64.infinity
  | .notANumber => Binary64.notANumber

end NumberWord

/-- One token as it is written. -/
inductive Written where
  | sign (token : Token) (text : Text) (known : text ∈ token.signs)
  | digits (literal : Literal)
  | letters (word : NumberWord)

namespace Written

def token : Written → Token
  | .sign token _ _ => token
  | .digits literal => .number literal.value
  | .letters word => .number word.value

def text : Written → Text
  | .sign _ text _ => text
  | .digits literal => literal.text
  | .letters word => word.text

/-- Whether a token would run into the next one if no blank parted them. -/
def runsInto : Written → Written → Bool
  | .digits _, .digits _ => true
  | .letters _, .letters _ => true
  | .sign .times _ _, next => next.text.head? == some '*' || next.text.head? == some '×'
  | _, _ => false

/-- Whether a token would go on with this character. -/
def takes : Written → Char → Bool
  | .sign .times _ _, character => character == '*'
  | .sign _ _ _, _ => false
  | .digits _, character => isNumeric character
  | .letters _, character => isLetter character

end Written

/-- A text that writes tokens in order, with blanks around and between them. -/
inductive Renders : List Written → Text → Prop
  | nothing {gap : Text} (blank : gap.allBlank = true) : Renders [] gap
  | token {first : Written} {others : List Written} {gap text : Text}
      (blank : gap.allBlank = true) (rest : Renders others text)
      (parted : ∀ next ∈ others.head?, first.runsInto next = true →
        text.head?.any isBlank = true) :
      Renders (first :: others) (gap ++ first.text ++ text)

theorem allBlank_iff (text : Text) :
    text.allBlank = true ↔ ∀ character ∈ text, isBlank character = true := by
  simp [Text.allBlank]

theorem not_isNumeric_of_isBlank {character : Char} (h : isBlank character = true) :
    isNumeric character = false := by
  obtain ⟨digit, point⟩ := @not_numeric_of_isDelimiter character (by simp [isDelimiter, h])
  simp [isNumeric, digit, point]

theorem not_isOperator_of_isBlank {character : Char} (h : isBlank character = true) :
    isOperator character = false := by
  have all : ['+', '-', '*', '/', '^', '(', ')'].all (!isBlank ·) = true := by decide
  rw [Bool.eq_false_iff]
  intro operator
  have marked := List.all_eq_true.mp all character (mem_of_isOperator operator)
  simp [h] at marked

theorem ne_of_isBlank {blank character : Char} (h : isBlank blank = true)
    (other : isBlank character = false) : blank ≠ character := by
  rintro rfl
  rw [h] at other
  cases other

theorem scan_blank_cons {blank : Char} (h : isBlank blank = true) (text : Text) :
    scan (blank :: text) = scan text := by
  have letter := not_isLetter_of_isBlank h
  have numeric := not_isNumeric_of_isBlank h
  have operator := not_isOperator_of_isBlank h
  have none : Token.ofOperator? blank = none := by
    simpa [isOperator, Option.isSome_eq_false_iff] using operator
  have read : lexeme blank text = .ok (Option.none, text) := by
    unfold lexeme
    unfold isNumeric at numeric
    simp [letter, numeric, none, h]
  rw [scan_cons, read]
  show (scan text).map ([] ++ ·) = scan text
  cases scan text <;> rfl

theorem scan_gap {gap : Text} (blank : gap.allBlank = true) (text : Text) :
    scan (gap ++ text) = scan text := by
  rw [allBlank_iff] at blank
  induction gap with
  | nil => rfl
  | cons character gap ih =>
    obtain ⟨first, others⟩ := List.forall_mem_cons.mp blank
    rw [List.cons_append, scan_blank_cons first, ih others]

theorem normalize_gap {gap : Text} (blank : gap.allBlank = true) (text : Text) :
    normalize (gap ++ text) = gap ++ normalize text := by
  rw [allBlank_iff] at blank
  simp only [normalize_eq_glyphPass]
  induction gap with
  | nil => rfl
  | cons character gap ih =>
    obtain ⟨first, others⟩ := List.forall_mem_cons.mp blank
    have single : writtenSingle character = character := by
      simp [writtenSingle, ne_of_isBlank first (show isBlank '×' = false by decide),
        ne_of_isBlank first (show isBlank '÷' = false by decide)]
    have other : ¬ (character = 'x' ∧ (gap ++ text).head? = some 'ʸ') := by
      intro glyph
      exact ne_of_isBlank first (show isBlank 'x' = false by decide) glyph.1
    rw [List.cons_append, glyphPass_cons other, single, ih others, List.cons_append]

/-- Every sign is normalized to the operator of its token, or to a `**`. -/
theorem glyphPass_sign {token : Token} {text : Text} (known : text ∈ token.signs) :
    (∃ operator, glyphPass text = [operator] ∧ Token.ofOperator? operator = some token ∧
        (operator = '*' → text.head? = some '*' ∨ text.head? = some '×')) ∨
      token = .power ∧ text = "**".toList := by
  match token, known with
  | .plus, known | .minus, known | .opening, known | .closing, known =>
    simp only [Token.signs, List.mem_singleton] at known
    subst known
    left
    exact ⟨_, rfl, rfl, by decide⟩
  | .times, known | .over, known =>
    simp only [Token.signs, List.mem_cons, List.not_mem_nil, or_false] at known
    left
    rcases known with rfl | rfl
    · exact ⟨_, rfl, rfl, by decide⟩
    · exact ⟨_, rfl, rfl, by decide⟩
  | .power, known =>
    simp only [Token.signs, List.mem_cons, List.not_mem_nil, or_false] at known
    rcases known with rfl | rfl | rfl
    · left
      exact ⟨_, rfl, rfl, by decide⟩
    · left
      exact ⟨_, rfl, rfl, by decide⟩
    · right
      exact ⟨rfl, rfl⟩
  | .number _, known => cases known

theorem scan_doubled (rest : Text) :
    scan ('*' :: '*' :: rest) = (scan rest).map (.power :: ·) := by
  rw [scan_cons]
  rfl

namespace NumberWord

theorem text_ne_nil (word : NumberWord) : word.text ≠ [] := by
  cases word <;> decide

theorem all_isLetter_text (word : NumberWord) : word.text.all isLetter = true := by
  cases word <;> decide

theorem shown_text (word : NumberWord) : Shown word.text := by
  cases word <;> decide

theorem wordValue?_text (word : NumberWord) : wordValue? word.text = some word.value := by
  cases word <;> rfl

end NumberWord

theorem wordValue?_eq_some {word : Text} {value : Float} (h : wordValue? word = some value) :
    ∃ known : NumberWord, known.text = word ∧ known.value = value := by
  unfold wordValue? at h
  split at h
  next same =>
    cases h
    exact ⟨.infinity, same.symm, rfl⟩
  · split at h
    next same =>
      cases h
      exact ⟨.notANumber, same.symm, rfl⟩
    · cases h

theorem wordValue?_eq_none_iff (word : Text) :
    wordValue? word = none ↔ word ≠ "Infinity".toList ∧ word ≠ "NaN".toList := by
  unfold wordValue?
  split
  next infinity =>
    constructor
    · rintro ⟨⟩
    · intro unknown
      exact absurd infinity unknown.1
  next infinite =>
    split
    next none =>
      constructor
      · rintro ⟨⟩
      · intro unknown
        exact absurd none unknown.2
    next number => exact ⟨fun _ => ⟨infinite, number⟩, fun _ => rfl⟩

namespace Written

/-- A token is read off the head of a text that does not go on with a character it takes. -/
theorem scan_append (written : Written) {rest : Text}
    (stop : ∀ character ∈ rest.head?, written.takes character = false) :
    scan (normalize written.text ++ rest) = (scan rest).map (written.token :: ·) := by
  cases written with
  | sign token text known =>
    rw [Written.text, normalize_eq_glyphPass]
    rcases glyphPass_sign known with ⟨operator, single, same, _⟩ | ⟨rfl, rfl⟩
    · rw [single]
      apply scan_operator same
      intro doubled
      obtain rfl : operator = '*' := by simpa using doubled.1
      obtain rfl : token = .times := (Option.some.inj same).symm
      have taken := stop '*' doubled.2
      simp [takes] at taken
    · exact scan_doubled rest
  | digits literal =>
    rw [Written.text, literal.shown_text.normalize]
    apply literal.scan_append
    intro next member
    exact literal.not_takes_of_not_isNumeric (stop next member)
  | letters word =>
    rw [Written.text, word.shown_text.normalize,
      scan_word word.text_ne_nil word.all_isLetter_text stop, word.wordValue?_text]
    rfl

theorem text_ne_nil (written : Written) : written.text ≠ [] := by
  cases written with
  | sign token text known =>
    intro empty
    rw [Written.text] at empty
    rcases glyphPass_sign known with ⟨operator, single, -⟩ | ⟨-, doubled⟩
    · simp [empty, glyphPass] at single
    · simp [empty] at doubled
  | digits literal => exact literal.text_ne_nil
  | letters word => exact word.text_ne_nil

/-- No token begins with a blank or with the second half of a glyph. -/
theorem head?_text (written : Written) :
    written.text.head?.all (fun first => !isBlank first && first != 'ʸ') = true := by
  cases written with
  | sign token text known =>
    have all : [Token.plus, .minus, .times, .over, .power, .opening, .closing].all (fun token =>
        token.signs.all fun text =>
          text.head?.all fun first => !isBlank first && first != 'ʸ') = true := by
      decide
    have signs (token : Token) (other : token ∈ [Token.plus, .minus, .times, .over, .power,
        .opening, .closing]) :=
      List.all_eq_true.mp (List.all_eq_true.mp all token other)
    match token, known with
    | .plus, known | .minus, known | .times, known | .over, known | .power, known
    | .opening, known | .closing, known => exact signs _ (by decide) text known
    | .number _, known => cases known
  | digits literal =>
    rw [Option.all_eq_true]
    intro first member
    have numeric := literal.isNumeric_of_mem_text first (List.mem_of_head? member)
    have blank : isBlank first = false := by
      rw [Bool.eq_false_iff]
      intro blank
      rw [not_isNumeric_of_isBlank blank] at numeric
      cases numeric
    have other : first ≠ 'ʸ' := by
      rintro rfl
      cases numeric
    simp [blank, other]
  | letters word => cases word <;> decide

theorem takes_blank (written : Written) {blank : Char} (h : isBlank blank = true) :
    written.takes blank = false := by
  have star := ne_of_isBlank h (show isBlank '*' = false by decide)
  have numeric := not_isNumeric_of_isBlank h
  have letter := not_isLetter_of_isBlank h
  unfold takes
  split
  · simp [star]
  · rfl
  · exact numeric
  · exact letter

/-- The head of a sign, once it is normalized. -/
theorem head?_normalize_sign {token : Token} {text : Text} (known : text ∈ token.signs) :
    ∀ character ∈ (normalize text).head?, isDelimiter character = true ∧
      (character = '*' → text.head? = some '*' ∨ text.head? = some '×') := by
  intro character member
  rw [normalize_eq_glyphPass] at member
  rcases glyphPass_sign known with ⟨operator, single, same, starred⟩ | ⟨-, rfl⟩
  · rw [single] at member
    obtain rfl : operator = character := Option.some.inj member
    exact ⟨by simp [isDelimiter, isOperator, same], starred⟩
  · obtain rfl : '*' = character := Option.some.inj member
    exact ⟨by decide, fun _ => Or.inl rfl⟩

/-- What a token does not run into does not begin with a character that the token takes. -/
theorem takes_head {first next : Written} (apart : first.runsInto next = false) :
    ∀ character ∈ (normalize next.text).head?, first.takes character = false := by
  intro character member
  cases next with
  | sign token text known =>
    obtain ⟨delimiter, starred⟩ := head?_normalize_sign known character member
    obtain ⟨digit, point⟩ := not_numeric_of_isDelimiter delimiter
    have letter := not_isLetter_of_isDelimiter delimiter
    unfold takes
    split
    · unfold runsInto at apart
      simp only [Bool.or_eq_false_iff, beq_eq_false_iff_ne, Written.text] at apart
      rw [beq_eq_false_iff_ne]
      intro star
      rcases starred star with same | same
      · exact apart.1 same
      · exact apart.2 same
    · rfl
    · simp [isNumeric, digit, point]
    · exact letter
  | digits literal =>
    rw [Written.text, literal.shown_text.normalize] at member
    have numeric := literal.isNumeric_of_mem_text character (List.mem_of_head? member)
    unfold takes
    split
    · rw [beq_eq_false_iff_ne]
      rintro rfl
      cases numeric
    · rfl
    · cases apart
    · exact not_isLetter_of_isNumeric numeric
  | letters word =>
    rw [Written.text, word.shown_text.normalize] at member
    have letter := List.all_eq_true.mp word.all_isLetter_text character
      (List.mem_of_head? member)
    unfold takes
    split
    · rw [beq_eq_false_iff_ne]
      rintro rfl
      exact absurd letter (by decide)
    · rfl
    · rw [Bool.eq_false_iff]
      intro numeric
      rw [not_isLetter_of_isNumeric numeric] at letter
      cases letter
    · cases apart

end Written

namespace Renders

variable {written : List Written} {text : Text}

theorem head?_ne (h : Renders written text) : text.head? ≠ some 'ʸ' := by
  have blank {gap : Text} (all : gap.allBlank = true) : gap.head? ≠ some 'ʸ' := by
    intro second
    have inside := (allBlank_iff gap).mp all 'ʸ' (List.mem_of_head? second)
    exact absurd inside (by decide)
  cases h with
  | nothing all => exact blank all
  | @token first others gap text all =>
    cases gap with
    | nil =>
      intro second
      rw [List.nil_append, List.head?_append_of_ne_nil _ first.text_ne_nil] at second
      have other := first.head?_text
      simp [second] at other
    | cons character gap =>
      intro second
      exact blank all second

theorem normalize_token (rest : Renders written text) {gap : Text} (blank : gap.allBlank = true)
    (first : Written) :
    normalize (gap ++ first.text ++ text) = gap ++ (normalize first.text ++ normalize text) := by
  have whole : ¬ cutsGlyph first.text text := fun cut => rest.head?_ne cut.2
  rw [List.append_assoc, normalize_gap blank, normalize_append whole]

/-- Where blanks part what would run together, a token ends at the text behind it. -/
theorem stop (rest : Renders written text) {first : Written}
    (parted : ∀ next ∈ written.head?, first.runsInto next = true →
      text.head?.any isBlank = true) :
    ∀ character ∈ (normalize text).head?, first.takes character = false := by
  intro character member
  cases rest with
  | nothing blank =>
    have kept := normalize_gap blank []
    simp only [List.append_nil, normalize_eq_glyphPass [], glyphPass] at kept
    rw [kept] at member
    exact first.takes_blank ((allBlank_iff _).mp blank character (List.mem_of_head? member))
  | @token next others gap text blank rest =>
    rw [rest.normalize_token blank] at member
    cases gap with
    | cons start gap =>
      obtain rfl : start = character := Option.some.inj member
      exact first.takes_blank ((allBlank_iff _).mp blank start List.mem_cons_self)
    | nil =>
      have apart : first.runsInto next = false := by
        rw [Bool.eq_false_iff]
        intro clash
        have begun := parted next rfl clash
        rw [List.nil_append, List.head?_append_of_ne_nil _ next.text_ne_nil] at begun
        obtain ⟨start, head, blank⟩ := (Option.any_eq_true _ _).mp begun
        have other := next.head?_text
        simp [head, blank] at other
      have typed : normalize next.text ≠ [] := by
        rw [normalize_eq_glyphPass]
        exact glyphPass_ne_nil next.text_ne_nil
      rw [List.nil_append, List.head?_append_of_ne_nil _ typed] at member
      exact Written.takes_head apart character member

/-- The tokenizer undoes every rendering. -/
theorem tokenize (h : Renders written text) :
    PocketCalc.tokenize text = .ok (written.map Written.token) := by
  unfold PocketCalc.tokenize
  induction h with
  | nothing blank =>
    have kept := normalize_gap blank []
    have all := scan_gap blank []
    simp only [List.append_nil, normalize_eq_glyphPass [], glyphPass] at kept all
    rw [kept, all, scan]
    rfl
  | @token first others gap text blank rest parted ih =>
    rw [rest.normalize_token blank, scan_gap blank, first.scan_append (rest.stop parted), ih]
    rfl

end Renders

theorem Decimal.word_le (decimal : Decimal) : decimal.word ≤ Binary64.infinityWord := by
  rw [word_eq_nearestWord]
  exact Nat.min_le_right _ _

theorem parts_infinity : parts Binary64.infinity = .infinite false := by
  have bits : Binary64.infinity.toBits.toNat = Binary64.infinityWord :=
    Binary64.toNat_toBits_ofWord (Nat.le_refl _)
  unfold parts
  rw [bits]
  rfl

theorem isUnsigned_ofWord {word : Nat} (h : word ≤ Binary64.infinityWord) :
    (Token.number (Binary64.ofWord word)).isUnsigned = true := by
  rcases Nat.lt_or_eq_of_le h with finite | rfl
  · simp [Token.isUnsigned, Binary64.parts_ofWord finite]
  · have infinite : parts (Binary64.ofWord Binary64.infinityWord) = .infinite false :=
      parts_infinity
    simp [Token.isUnsigned, infinite]

theorem Written.isUnsigned_token (written : Written) : written.token.isUnsigned = true := by
  cases written with
  | sign token text known =>
    match token, known with
    | .plus, _ | .minus, _ | .times, _ | .over, _ | .power, _ | .opening, _ | .closing, _ => rfl
    | .number _, known => cases known
  | digits literal => exact isUnsigned_ofWord literal.numeral.decimal.word_le
  | letters word =>
    cases word with
    | infinity => exact isUnsigned_ofWord (Nat.le_refl _)
    | notANumber =>
      have none : parts Binary64.notANumber = .notANumber := by decide
      simp [Written.token, NumberWord.value, Token.isUnsigned, none]

theorem exists_written {token : Token} (unsigned : token.isUnsigned = true) :
    ∃ written : Written, written.token = token := by
  match token, unsigned with
  | .plus, _ | .minus, _ | .times, _ | .over, _ | .power, _ | .opening, _ | .closing, _ =>
    exact ⟨.sign _ _ List.mem_cons_self, rfl⟩
  | .number value, unsigned =>
    have whole := Binary64.ofParts_parts value
    cases shape : parts value with
    | notANumber =>
      rw [shape] at whole
      exact ⟨.letters .notANumber, congrArg Token.number whole⟩
    | infinite negative =>
      obtain rfl : negative = false := by simpa [Token.isUnsigned, shape] using unsigned
      rw [shape] at whole
      exact ⟨.letters .infinity, congrArg Token.number whole⟩
    | finite negative word =>
      obtain rfl : negative = false := by simpa [Token.isUnsigned, shape] using unsigned
      have same := Decimal.word_shortest (lt_infinityWord_of_parts shape)
      rw [shape] at whole
      refine ⟨.digits (Decimal.shortest word).literal, congrArg Token.number ?_⟩
      rw [Decimal.value_literal, same]
      exact whole

/-- With a blank before each, any tokens can stand in a row. -/
theorem exists_renders (written : List Written) : ∃ text, Renders written text := by
  refine ⟨written.flatMap fun token => [' '] ++ token.text, ?_⟩
  induction written with
  | nil => exact .nothing rfl
  | cons first others ih =>
    apply Renders.token rfl ih
    intro next member _
    cases others with
    | nil => cases member
    | cons second others => rfl

/-- The lists without signed numbers are those that can be written, and the tokenizer takes every
text that writes such a list for exactly that list. -/
theorem tokenize_rendering (tokens : List Token) :
    ((∃ written text, written.map Written.token = tokens ∧ Renders written text) ↔
        ∀ token ∈ tokens, token.isUnsigned = true) ∧
      ∀ written text, written.map Written.token = tokens → Renders written text →
        tokenize text = .ok tokens := by
  refine ⟨⟨?_, ?_⟩, ?_⟩
  · intro ⟨written, _, same, _⟩ token member
    rw [← same] at member
    obtain ⟨piece, _, rfl⟩ := List.mem_map.mp member
    exact piece.isUnsigned_token
  · intro unsigned
    have writable : tokens ∈ Set.range (List.map Written.token) := by
      rw [Set.range_list_map]
      intro token member
      exact exists_written (unsigned token member)
    obtain ⟨written, same⟩ := writable
    obtain ⟨text, renders⟩ := exists_renders written
    exact ⟨written, text, same, renders⟩
  · intro written text same renders
    rw [← same]
    exact renders.tokenize

/-- Without the blank, the three signs in a row would be a power and then a multiplication. -/
theorem tokenize_rendering_apart :
    let half : Literal := ⟨[], some ['5'], by decide, by decide⟩
    tokenize ".5× **Infinity".toList =
      .ok [.number half.value, .times, .power, .number Binary64.infinity] := by
  intro half
  have nothing := @Renders.nothing [] rfl
  have word := @Renders.token (.letters .infinity) _ [] _ rfl nothing (by decide)
  have power := @Renders.token (.sign .power "**".toList (by decide)) _ [' '] _ rfl word
    (by decide)
  have times := @Renders.token (.sign .times "×".toList (by decide)) _ [] _ rfl power (by decide)
  have renders := @Renders.token (.digits half) _ [] _ rfl times (by decide)
  rw [(tokenize_rendering _).2 _ ".5× **Infinity".toList rfl renders]
  rfl

end PocketCalc
