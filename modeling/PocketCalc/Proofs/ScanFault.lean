import PocketCalc.Proofs.Rendering
import PocketCalc.Proofs.RoundTrip

/-!
# Faults of a text

A text that the tokenizer refuses has a first part that is read as tokens, and a fault behind it: a
point with no digit on either side, a word that is no number, or a run of characters that begins
with a stray one. The error holds the fault and nothing else, whatever stands behind it.
-/
namespace PocketCalc

/-- Whether a text ends in digits that no point stands before. -/
def EndsInWhole (text : Text) : Prop :=
  ∃ before digits, text = before ++ digits ∧ digits ≠ [] ∧
    (∀ digit ∈ digits, digit.isDigit = true) ∧
    ∀ last ∈ before.getLast?, isNumeric last = false

/-- What stops the tokenizer between two texts, and the error it gives. -/
inductive Fault : Text → Text → Text → ExpressionError → Prop
  | point {front back : Text} (bare : ¬ EndsInWhole front)
      (alone : ∀ next ∈ back.head?, next.isDigit = false) :
      Fault front ['.'] back (.invalidNumber ['.'])
  | word {front word back : Text} (typed : word ≠ []) (letters : word.all isLetter = true)
      (begins : ∀ last ∈ front.getLast?, isLetter last = false)
      (ends : ∀ next ∈ back.head?, isLetter next = false)
      (unknown : word ≠ "Infinity".toList ∧ word ≠ "NaN".toList) :
      Fault front word back (.unrecognizedToken word)
  | stray {front others back : Text} {first : Char}
      (strange : isLetter first = false ∧ isNumeric first = false ∧ isDelimiter first = false)
      (run : ∀ other ∈ others, other.isDigit = false ∧ isDelimiter other = false)
      (ends : ∀ next ∈ back.head?, (next.isDigit || isDelimiter next) = true) :
      Fault front (first :: others) back (.unrecognizedToken (first :: others))

/-- What stands at the head of a text, before what, and what the tokenizer makes of it. -/
inductive Head : Text → Text → Except ExpressionError (Option Token) → Prop
  | word (word : NumberWord) {rest : Text} (ends : ∀ next ∈ rest.head?, isLetter next = false) :
      Head word.text rest (.ok (some (.number word.value)))
  | literal (literal : Literal) {rest : Text}
      (ends : ∀ next ∈ rest.head?, literal.takes next = false) :
      Head literal.text rest (.ok (some (.number literal.value)))
  | doubled {rest : Text} : Head ['*', '*'] rest (.ok (some .power))
  | sign {sign : Char} {token : Token} {rest : Text}
      (known : Token.ofOperator? sign = some token) (single : ¬ cutsPower [sign] rest) :
      Head [sign] rest (.ok (some token))
  | blank {blank : Char} {rest : Text} (h : isBlank blank = true) : Head [blank] rest (.ok none)
  | fault {fault rest : Text} {error : ExpressionError} (h : Fault [] fault rest error) :
      Head fault rest (.error error)

theorem continuesStray_eq (character : Char) :
    continuesStray character = !(character.isDigit || isDelimiter character) := by
  unfold continuesStray isDelimiter isOperator
  rw [Bool.or_comm]

theorem head?_dropWhile (predicate : Char → Bool) (text : Text) :
    ∀ next ∈ (text.dropWhile predicate).head?, predicate next = false := by
  intro next member
  have head := List.head?_dropWhile_not predicate text
  rw [Option.mem_def.mp member] at head
  simpa using head

/-- Figures at the head of a text are a literal, or begin with a point that has no digit behind
it. -/
theorem point_or_exists_literal {character : Char} (numeric : isNumeric character = true)
    (others : Text) :
    (character = '.' ∧ ∀ next ∈ others.head?, next.isDigit = false) ∨
      ∃ (literal : Literal) (rest : Text), character :: others = literal.text ++ rest ∧
        ∀ next ∈ rest.head?, literal.takes next = false := by
  obtain ⟨text, begins, first⟩ : ∃ text, character :: others = text ∧ text.head? = some character :=
    ⟨_, rfl, rfl⟩
  have split := List.takeWhile_append_dropWhile (p := Char.isDigit) (l := text)
  have stop := head?_dropWhile Char.isDigit text
  have digits : (text.takeWhile Char.isDigit).all Char.isDigit = true := List.all_takeWhile
  by_cases pointed : (text.dropWhile Char.isDigit).head? = some '.'
  · obtain ⟨later, shape⟩ := List.head?_eq_some_iff.mp pointed
    have split' := List.takeWhile_append_dropWhile (p := Char.isDigit) (l := later)
    have stop' := head?_dropWhile Char.isDigit later
    have digits' : (later.takeWhile Char.isDigit).all Char.isDigit = true := List.all_takeWhile
    rw [shape] at split
    by_cases bare : text.takeWhile Char.isDigit ++ later.takeWhile Char.isDigit = []
    · left
      obtain ⟨noWhole, noFraction⟩ := List.append_eq_nil_iff.mp bare
      rw [noFraction, List.nil_append] at split'
      rw [noWhole, List.nil_append, ← begins] at split
      rw [split'] at stop'
      cases split
      exact ⟨rfl, stop'⟩
    · right
      let literal : Literal := ⟨text.takeWhile Char.isDigit, some (later.takeWhile Char.isDigit),
        by simp [digits, digits'], bare⟩
      refine ⟨literal, later.dropWhile Char.isDigit, ?_, ?_⟩
      · simp [begins, literal, Literal.text, split', split]
      · intro next member
        simp [Literal.takes, literal, stop' next member]
  · right
    have whole : text.takeWhile Char.isDigit ++ [] ≠ [] := by
      rw [List.append_nil]
      intro empty
      rw [empty, List.nil_append] at split
      rw [split] at stop pointed
      have digit := stop character first
      rw [isNumeric, digit, Bool.false_or, beq_iff_eq] at numeric
      rw [first, numeric] at pointed
      exact pointed rfl
    let literal : Literal := ⟨text.takeWhile Char.isDigit, none, by simp [digits], whole⟩
    refine ⟨literal, text.dropWhile Char.isDigit, begins.trans split.symm, ?_⟩
    intro next member
    have other : next ≠ '.' := by
      rintro rfl
      exact pointed member
    simp [Literal.takes, stop next member, other]

theorem lexeme_point {rest : Text} (alone : ∀ next ∈ rest.head?, next.isDigit = false) :
    lexeme '.' rest = .error (.invalidNumber ['.']) := by
  have fraction : rest.takeWhile Char.isDigit = [] := takeWhile_append_stop alone []
  have letter : isLetter '.' = false := not_isLetter_of_isNumeric rfl
  simp [lexeme, letter, Numeral.span, Numeral.isEmpty, fraction]

theorem exists_head {text : Text} (typed : text ≠ []) :
    ∃ chunk rest outcome, text = chunk ++ rest ∧ Head chunk rest outcome := by
  cases text with
  | nil => exact absurd rfl typed
  | cons character others =>
  by_cases letter : isLetter character = true
  · have split := List.takeWhile_append_dropWhile (p := isLetter) (l := character :: others)
    have letters : ((character :: others).takeWhile isLetter).all isLetter = true :=
      List.all_takeWhile
    have stop := head?_dropWhile isLetter (character :: others)
    cases known : wordValue? ((character :: others).takeWhile isLetter) with
    | some value =>
      obtain ⟨word, same, -⟩ := wordValue?_eq_some known
      rw [← same] at split
      exact ⟨word.text, _, _, split.symm, .word word stop⟩
    | none =>
      refine ⟨_, _, _, split.symm, .fault (.word ?_ letters (by simp) stop ?_)⟩
      · simp [letter]
      · exact (wordValue?_eq_none_iff _).mp known
  by_cases numeric : isNumeric character = true
  · rcases point_or_exists_literal numeric others with ⟨rfl, alone⟩ |
      ⟨literal, rest, split, stop⟩
    · refine ⟨['.'], others, _, rfl, .fault (.point ?_ alone)⟩
      rintro ⟨before, digits, same, typed, -⟩
      exact typed (List.append_eq_nil_iff.mp same.symm).2
    · exact ⟨_, rest, _, split, .literal literal stop⟩
  rw [Bool.not_eq_true] at letter numeric
  cases known : Token.ofOperator? character with
  | some token =>
    by_cases doubled : cutsPower [character] others
    · obtain ⟨first, second⟩ := doubled
      obtain rfl : character = '*' := by simpa using first
      obtain ⟨later, rfl⟩ := List.head?_eq_some_iff.mp second
      exact ⟨_, later, _, rfl, .doubled⟩
    · exact ⟨_, others, _, rfl, .sign known doubled⟩
  | none =>
    by_cases blank : isBlank character = true
    · exact ⟨_, others, _, rfl, .blank blank⟩
    · have split := List.takeWhile_append_dropWhile (p := continuesStray) (l := others)
      have stop := head?_dropWhile continuesStray others
      refine ⟨character :: others.takeWhile continuesStray, others.dropWhile continuesStray, _, ?_,
        .fault (.stray ?_ ?_ ?_)⟩
      · rw [List.cons_append, split]
      · refine ⟨letter, numeric, ?_⟩
        simp [isDelimiter, isOperator, blank, known]
      · intro other member
        have run := List.mem_takeWhile_imp member
        simpa [continuesStray_eq] using run
      · intro next member
        have ended := stop next member
        rwa [continuesStray_eq, Bool.not_eq_false'] at ended

namespace EndsInWhole
variable {front back text : Text}

theorem last {last : Char} (h : EndsInWhole text) (ended : last ∈ text.getLast?) :
    last.isDigit = true := by
  obtain ⟨before, digits, rfl, typed, all, -⟩ := h
  rw [List.getLast?_append_of_ne_nil _ typed] at ended
  exact all last (List.mem_of_getLast? ended)

theorem of_append (h : EndsInWhole (front ++ back)) (typed : back ≠ []) : EndsInWhole back := by
  obtain ⟨before, digits, same, some, all, apart⟩ := h
  rcases List.append_eq_append_iff.mp same with ⟨middle, rfl, rfl⟩ | ⟨middle, rfl, rfl⟩
  · refine ⟨middle, digits, rfl, some, all, ?_⟩
    intro last ended
    apply apart
    rw [List.getLast?_append, Option.mem_def.mp ended]
    rfl
  · exact ⟨[], back, rfl, typed, fun digit member => all digit (by simp [member]), by simp⟩

theorem append (h : EndsInWhole back)
    (apart : ∀ next ∈ back.head?, next.isDigit = true →
      ∀ last ∈ front.getLast?, isNumeric last = false) : EndsInWhole (front ++ back) := by
  obtain ⟨before, digits, rfl, typed, all, quiet⟩ := h
  refine ⟨front ++ before, digits, by simp, typed, all, ?_⟩
  cases before with
  | nil =>
    rw [List.append_nil]
    cases digits with
    | nil => exact absurd rfl typed
    | cons first others => exact apart first rfl (all first List.mem_cons_self)
  | cons first others =>
    rw [List.getLast?_append_of_ne_nil _ (List.cons_ne_nil _ _)]
    exact quiet

end EndsInWhole

theorem Literal.endsInWhole_text_iff (literal : Literal) :
    EndsInWhole literal.text ↔ literal.fraction = none := by
  constructor
  · rintro ⟨before, digits, same, -, all, apart⟩
    have alone : before = [] := by
      by_contra some
      have member : before.getLast some ∈ literal.text := by simp [same]
      have numeric := literal.isNumeric_of_mem_text _ member
      rw [apart _ (List.getLast?_eq_some_getLast some)] at numeric
      cases numeric
    cases fraction : literal.fraction with
    | none => rfl
    | some fraction' =>
      have point : '.' ∈ literal.text := by simp [Literal.text, fraction]
      rw [same, alone] at point
      exact absurd (all '.' point) (by decide)
  · intro none
    refine ⟨[], literal.whole, ?_, ?_, literal.whole_digits, by simp⟩
    · simp [Literal.text, none]
    · simpa [none] using literal.spelled

namespace Head
variable {chunk rest : Text}

theorem scan {outcome : Except ExpressionError (Option Token)} (h : Head chunk rest outcome) :
    PocketCalc.scan (chunk ++ rest) =
      outcome.bind fun token => (PocketCalc.scan rest).map (token.toList ++ ·) := by
  cases h with
  | word word ends =>
    rw [scan_word word.text_ne_nil word.all_isLetter_text ends, word.wordValue?_text]
    rfl
  | literal literal ends => exact literal.scan_append ends
  | doubled => exact scan_doubled rest
  | sign known single => exact scan_operator known single
  | blank h =>
    rw [List.singleton_append, scan_blank_cons h]
    show PocketCalc.scan rest = (PocketCalc.scan rest).map ([] ++ ·)
    cases PocketCalc.scan rest <;> rfl
  | fault h =>
    cases h with
    | point bare alone =>
      rw [List.singleton_append, scan_cons, lexeme_point alone]
      rfl
    | word typed letters begins ends unknown =>
      rw [scan_word typed letters ends, (wordValue?_eq_none_iff _).mpr unknown]
      rfl
    | @stray others _ first strange run ends =>
      obtain ⟨letter, numeric, apart⟩ := strange
      have kept : (others ++ rest).takeWhile continuesStray = others := by
        rw [takeWhile_append_stop, takeWhile_eq_self]
        · intro other member
          simp [continuesStray_eq, run other member]
        · intro next member
          simp [continuesStray_eq, ends next member]
      have read : lexeme first (others ++ rest) =
          .error (.unrecognizedToken (first :: others)) := by
        unfold isNumeric at numeric
        unfold isDelimiter isOperator at apart
        simp only [Bool.or_eq_false_iff, Option.isSome_eq_false_iff, Option.isNone_iff_eq_none]
          at apart
        simp [lexeme, letter, numeric, apart, kept]
      rw [List.cons_append, scan_cons, read]
      rfl

theorem ne_nil {outcome : Except ExpressionError (Option Token)} (h : Head chunk rest outcome) :
    chunk ≠ [] := by
  cases h with
  | word word => exact word.text_ne_nil
  | literal literal => exact literal.text_ne_nil
  | doubled | sign | blank => simp
  | fault h =>
    cases h with
    | word typed => exact typed
    | point | stray => simp

/-- A text is the empty one, or one with something at its head before a shorter text. -/
theorem induction {motive : Text → Prop} (nil : motive [])
    (head : ∀ chunk rest outcome, Head chunk rest outcome → motive rest → motive (chunk ++ rest))
    (text : Text) : motive text := by
  induction length : text.length using Nat.strongRecOn generalizing text with
  | ind size ih =>
    by_cases typed : text = []
    · rw [typed]
      exact nil
    · obtain ⟨chunk, rest, outcome, rfl, h⟩ := exists_head typed
      have shorter : rest.length < size := by
        have := List.length_pos_iff.mpr h.ne_nil
        simp only [List.length_append] at length
        omega
      exact head chunk rest outcome h (ih _ shorter rest rfl)

variable {token : Option Token}

/-- A token is read alike before texts that begin alike, and before no text at all. -/
theorem congr {rest' : Text} (h : Head chunk rest (.ok token))
    (same : ∀ next ∈ rest'.head?, next ∈ rest.head?) : Head chunk rest' (.ok token) := by
  cases h with
  | word word ends => exact .word word fun next member => ends next (same next member)
  | literal literal ends => exact .literal literal fun next member => ends next (same next member)
  | doubled => exact .doubled
  | sign known single => exact .sign known fun cut => single ⟨cut.1, same '*' cut.2⟩
  | blank h => exact .blank h

/-- What a token ends in, and what does not stand behind it. -/
theorem exists_last (h : Head chunk rest (.ok token)) :
    ∃ last ∈ chunk.getLast?,
      (isLetter last = true ∧ ∀ next ∈ rest.head?, isLetter next = false) ∨
      (∃ literal : Literal, chunk = literal.text ∧
        ∀ next ∈ rest.head?, literal.takes next = false) ∨
      isDelimiter last = true := by
  have ended := List.getLast?_eq_some_getLast h.ne_nil
  have member := List.getLast_mem h.ne_nil
  cases h with
  | word word ends =>
    exact ⟨_, ended, .inl ⟨List.all_eq_true.mp word.all_isLetter_text _ member, ends⟩⟩
  | literal literal ends => exact ⟨_, ended, .inr (.inl ⟨literal, rfl, ends⟩)⟩
  | doubled => exact ⟨_, ended, .inr (.inr rfl)⟩
  | sign known single => exact ⟨_, ended, .inr (.inr (by simp [isDelimiter, isOperator, known]))⟩
  | blank h => exact ⟨_, ended, .inr (.inr (by simp [isDelimiter, h]))⟩

/-- No digit stands behind a figure of the token before it. -/
theorem not_isNumeric_last (h : Head chunk rest (.ok token)) {next : Char}
    (first : next ∈ rest.head?) (digit : next.isDigit = true) :
    ∀ last ∈ chunk.getLast?, isNumeric last = false := by
  obtain ⟨last, ended, kind⟩ := h.exists_last
  rw [Option.mem_def.mp ended]
  rintro _ ⟨⟩
  rcases kind with ⟨letter, -⟩ | ⟨literal, -, ends⟩ | delimiter
  · exact not_isNumeric_of_isLetter letter
  · have quiet := ends next first
    simp [Literal.takes, digit] at quiet
  · obtain ⟨figure, point⟩ := not_numeric_of_isDelimiter delimiter
    simp [isNumeric, figure, point]

/-- No letter stands behind a letter of the token before it. -/
theorem not_isLetter_last (h : Head chunk rest (.ok token)) {next : Char}
    (first : next ∈ rest.head?) (letter : isLetter next = true) :
    ∀ last ∈ chunk.getLast?, isLetter last = false := by
  obtain ⟨last, ended, kind⟩ := h.exists_last
  rcases kind with ⟨-, ends⟩ | ⟨literal, rfl, -⟩ | delimiter
  · rw [ends next first] at letter
    cases letter
  · intro last ended
    exact not_isLetter_of_isNumeric
      (literal.isNumeric_of_mem_text last (List.mem_of_getLast? ended))
  · rw [Option.mem_def.mp ended]
    rintro _ ⟨⟩
    exact not_isLetter_of_isDelimiter delimiter

/-- No point stands behind a literal without one. -/
theorem not_endsInWhole (h : Head chunk rest (.ok token)) (first : rest.head? = some '.') :
    ¬ EndsInWhole chunk := by
  intro whole
  obtain ⟨last, ended, kind⟩ := h.exists_last
  have digit := whole.last ended
  rcases kind with ⟨letter, -⟩ | ⟨literal, rfl, ends⟩ | delimiter
  · rw [not_isLetter_of_isNumeric (by simp [isNumeric, digit])] at letter
    cases letter
  · have quiet := ends '.' first
    rw [literal.endsInWhole_text_iff] at whole
    simp [Literal.takes, whole] at quiet
  · rw [(not_numeric_of_isDelimiter delimiter).1] at digit
    cases digit

end Head

section
variable {front fault back chunk : Text} {error : ExpressionError} {token : Option Token}

/-- What a fault begins with, and what does not stand before it. -/
theorem Fault.exists_first (f : Fault front fault back error) :
    ∃ first ∈ fault.head?, isDelimiter first = false ∧
      (first = '.' ∧ ¬ EndsInWhole front ∨
        isLetter first = true ∧ (∀ last ∈ front.getLast?, isLetter last = false) ∨
        isLetter first = false ∧ isNumeric first = false) := by
  cases f with
  | point bare alone => exact ⟨'.', rfl, by decide, .inl ⟨rfl, bare⟩⟩
  | word typed letters begins ends unknown =>
    cases fault with
    | nil => exact absurd rfl typed
    | cons first others =>
      have letter := List.all_eq_true.mp letters first List.mem_cons_self
      refine ⟨first, rfl, ?_, .inr (.inl ⟨letter, begins⟩)⟩
      rw [Bool.eq_false_iff]
      intro delimiter
      rw [not_isLetter_of_isDelimiter delimiter] at letter
      cases letter
  | stray strange run ends =>
    obtain ⟨letter, numeric, apart⟩ := strange
    exact ⟨_, rfl, apart, .inr (.inr ⟨letter, numeric⟩)⟩

theorem Fault.behind (f : Fault front fault back error)
    (h : Head chunk (front ++ fault ++ back) (.ok token)) :
    Fault (chunk ++ front) fault back error := by
  cases f with
  | point bare alone =>
    refine .point ?_ alone
    intro whole
    by_cases typed : front = []
    · subst typed
      rw [List.append_nil] at whole
      exact h.not_endsInWhole rfl whole
    · exact bare (whole.of_append typed)
  | word typed letters begins ends unknown =>
    refine .word typed letters ?_ ends unknown
    cases front with
    | nil =>
      cases fault with
      | nil => exact absurd rfl typed
      | cons first others =>
        rw [List.append_nil]
        exact h.not_isLetter_last rfl (List.all_eq_true.mp letters first List.mem_cons_self)
    | cons next others =>
      rw [List.getLast?_append_of_ne_nil _ (List.cons_ne_nil _ _)]
      exact begins
  | stray strange run ends => exact .stray strange run ends

theorem Fault.ahead (f : Fault (chunk ++ front) fault back error)
    (h : Head chunk (front ++ fault ++ back) (.ok token)) :
    Fault front fault back error := by
  cases f with
  | point bare alone =>
    refine .point ?_ alone
    intro whole
    apply bare
    apply whole.append
    intro next first digit
    apply h.not_isNumeric_last _ digit
    rw [List.append_assoc, List.head?_append, Option.mem_def.mp first]
    rfl
  | word typed letters begins ends unknown =>
    refine .word typed letters ?_ ends unknown
    intro last ended
    apply begins
    rw [List.getLast?_append, Option.mem_def.mp ended]
    rfl
  | stray strange run ends => exact .stray strange run ends

/-- No fault goes on with the token before it. -/
theorem Fault.head (f : Fault chunk fault back error) (h : Head chunk [] (.ok token)) :
    Head chunk (fault ++ back) (.ok token) := by
  obtain ⟨first, begins, apart, kind⟩ := f.exists_first
  have only : (fault ++ back).head? = some first := by
    rw [List.head?_append, Option.mem_def.mp begins]
    rfl
  cases h with
  | word word =>
    refine .word word ?_
    rw [only]
    rintro _ ⟨⟩
    rcases kind with ⟨rfl, -⟩ | ⟨-, parted⟩ | ⟨letter, -⟩
    · exact not_isLetter_of_isNumeric rfl
    · have letter := List.all_eq_true.mp word.all_isLetter_text _ (List.getLast_mem word.text_ne_nil)
      rw [parted _ (List.getLast?_eq_some_getLast word.text_ne_nil)] at letter
      cases letter
    · exact letter
  | literal literal =>
    refine .literal literal ?_
    rw [only]
    rintro _ ⟨⟩
    rcases kind with ⟨rfl, bare⟩ | ⟨letter, -⟩ | ⟨-, quiet⟩
    · rw [literal.endsInWhole_text_iff] at bare
      simp [Literal.takes, Option.isSome_iff_ne_none, bare]
    · exact literal.not_takes_of_not_isNumeric (not_isNumeric_of_isLetter letter)
    · exact literal.not_takes_of_not_isNumeric quiet
  | doubled => exact .doubled
  | sign known =>
    refine .sign known ?_
    rintro ⟨-, star⟩
    rw [only] at star
    cases star
    cases apart
  | blank h => exact .blank h

theorem exists_fault {text : Text} (failed : scan text = .error error) :
    ∃ front fault back, text = front ++ fault ++ back ∧ (∃ tokens, scan front = .ok tokens) ∧
      Fault front fault back error := by
  induction text using Head.induction with
  | nil => simp [scan] at failed
  | head chunk rest outcome h ih =>
    rw [h.scan] at failed
    cases outcome with
    | error error =>
      cases failed
      cases h with
      | fault f => exact ⟨[], chunk, rest, rfl, ⟨[], by simp [scan]⟩, f⟩
    | ok token =>
      cases later : scan rest with
      | ok tokens =>
        rw [later] at failed
        cases failed
      | error error =>
        rw [later] at failed
        cases failed
        obtain ⟨front, fault, back, rfl, ⟨tokens, read⟩, f⟩ := ih later
        refine ⟨chunk ++ front, fault, back, by simp, ⟨token.toList ++ tokens, ?_⟩, f.behind h⟩
        have cut : Head chunk front (.ok token) := h.congr fun next member => by
          rw [List.append_assoc, List.head?_append, Option.mem_def.mp member]
          rfl
        rw [cut.scan, read]
        rfl

theorem Fault.scan {tokens : List Token} (read : PocketCalc.scan front = .ok tokens)
    (f : Fault front fault back error) : PocketCalc.scan (front ++ fault ++ back) = .error error := by
  induction front using Head.induction generalizing tokens with
  | nil =>
    rw [List.nil_append, (Head.fault f).scan]
    rfl
  | head chunk rest outcome h ih =>
    rw [h.scan] at read
    cases outcome with
    | error error => cases read
    | ok token =>
      cases later : PocketCalc.scan rest with
      | error error =>
        rw [later] at read
        cases read
      | ok others =>
        have whole : Head chunk (rest ++ fault ++ back) (.ok token) := by
          cases rest with
          | nil =>
            rw [List.append_nil] at f
            exact f.head h
          | cons next rest => exact h.congr fun next member => member
        have failed := ih later (f.ahead whole)
        have assoc : chunk ++ rest ++ fault ++ back = chunk ++ (rest ++ fault ++ back) := by simp
        rw [assoc, whole.scan, failed]
        rfl

end

/-- A text is refused exactly if it splits into a part that is read, a fault and some rest, and
then the error is that of the fault. A number that is refused is a point, since every literal that
is scanned is read as a number. -/
theorem tokenize_eq_error_iff (text : Text) :
    (∀ error, tokenize text = .error error ↔
        ∃ front fault back, normalize text = front ++ fault ++ back ∧
          (∃ tokens, tokenize front = .ok tokens) ∧ Fault front fault back error) ∧
      (∀ spelled, tokenize text = .error (.invalidNumber spelled) → spelled = ['.']) ∧
      ∀ character rest, isNumeric character = true →
        (character = '.' ∧ (∀ next ∈ rest.head?, next.isDigit = false) ∧
          lexeme character rest = .error (.invalidNumber ['.'])) ∨
        ∃ spelled value later, character :: rest = spelled ++ later ∧
          Number.read? spelled = some value ∧
          lexeme character rest = .ok (some (.number value), later) := by
  have faults : ∀ error, tokenize text = .error error ↔
      ∃ front fault back, normalize text = front ++ fault ++ back ∧
        (∃ tokens, tokenize front = .ok tokens) ∧ Fault front fault back error := by
    intro error
    constructor
    · intro failed
      obtain ⟨front, fault, back, split, read, f⟩ := exists_fault failed
      refine ⟨front, fault, back, split, ?_, f⟩
      rw [List.append_assoc] at split
      rw [tokenize, normalize_front split]
      exact read
    · rintro ⟨front, fault, back, split, ⟨tokens, read⟩, f⟩
      have plain : normalize front = front := by
        rw [List.append_assoc] at split
        exact normalize_front split
      rw [tokenize, plain] at read
      rw [tokenize, split]
      exact f.scan read
  refine ⟨faults, ?_, ?_⟩
  · intro spelled failed
    obtain ⟨front, fault, back, -, -, f⟩ := (faults _).mp failed
    cases f
    rfl
  · intro character rest numeric
    rcases point_or_exists_literal numeric rest with ⟨rfl, alone⟩ |
      ⟨literal, later, split, stop⟩
    · exact .inl ⟨rfl, alone, lexeme_point alone⟩
    · exact .inr ⟨literal.text, literal.value, later, split, literal.read?_text,
        literal.lexeme_append stop split⟩

end PocketCalc
