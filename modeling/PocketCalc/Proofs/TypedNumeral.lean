import PocketCalc.Proofs.OperandReading
import PocketCalc.Proofs.ZeroOperand

/-!
# Typed numerals

Whatever characters are typed into an untouched operand, it becomes the canonical numeral of what
was typed: the digits and the first point, with one zero before a leading point and without zeros
that another digit follows. The operand holds this numeral after every character, so that one step
and an induction on what was typed give it for the whole.
-/
namespace PocketCalc

open Calculator (untouched failure recovered)

/-- A text without the points behind the first. -/
def dropLaterPoints : Text → Text
  | [] => []
  | '.' :: rest => '.' :: rest.filter (· != '.')
  | character :: rest => character :: dropLaterPoints rest

def leadWithZero : Text → Text
  | '.' :: rest => '0' :: '.' :: rest
  | text => text

/-- A text without the zeros in front that a digit follows. -/
def dropLeadingZeros : Text → Text
  | [] => []
  | character :: rest =>
    if character = '0' ∧ rest.head?.any Char.isDigit then dropLeadingZeros rest
    else character :: rest

def canonicalNumeral (typed : Text) : Text :=
  dropLeadingZeros (leadWithZero (dropLaterPoints (typed.filter isNumeric)))

theorem dropLaterPoints_cons {character : Char} (digit : character ≠ '.') (rest : Text) :
    dropLaterPoints (character :: rest) = character :: dropLaterPoints rest := by
  simp [dropLaterPoints]

/-- Only points are dropped, and never all of them. -/
theorem mem_dropLaterPoints_iff (text : Text) (character : Char) :
    character ∈ dropLaterPoints text ↔ character ∈ text := by
  induction text with
  | nil => rfl
  | cons first rest ih =>
    by_cases point : first = '.'
    · by_cases other : character = '.' <;> simp [point, dropLaterPoints, other]
    · simp [dropLaterPoints_cons point, ih]

theorem count_dropLaterPoints (text : Text) : (dropLaterPoints text).count '.' ≤ 1 := by
  induction text with
  | nil => exact Nat.zero_le _
  | cons character rest ih =>
    by_cases point : character = '.'
    · simp [point, dropLaterPoints, List.count_eq_zero]
    · simpa [dropLaterPoints_cons point, List.count_cons, point] using ih

theorem dropLaterPoints_dropLaterPoints (text : Text) :
    dropLaterPoints (dropLaterPoints text) = dropLaterPoints text := by
  induction text with
  | nil => rfl
  | cons first rest ih =>
    by_cases point : first = '.'
    · simp [point, dropLaterPoints]
    · rw [dropLaterPoints_cons point, dropLaterPoints_cons point, ih]

theorem dropLaterPoints_concat (text : Text) (character : Char) :
    dropLaterPoints (text ++ [character]) =
      if character = '.' ∧ '.' ∈ text then dropLaterPoints text
      else dropLaterPoints text ++ [character] := by
  induction text with
  | nil =>
    by_cases point : character = '.'
    · simp [point, dropLaterPoints]
    · simp [dropLaterPoints_cons point, dropLaterPoints]
  | cons first rest ih =>
    by_cases point : first = '.'
    · subst point
      by_cases again : character = '.'
      · simp [again, dropLaterPoints]
      · simp [again, dropLaterPoints]
    · have other : '.' ≠ first := Ne.symm point
      rw [List.cons_append, dropLaterPoints_cons point, dropLaterPoints_cons point, ih]
      simp only [List.mem_cons, other, false_or]
      split <;> rfl

theorem mem_dropLeadingZeros_iff (text : Text) {character : Char} (nonzero : character ≠ '0') :
    character ∈ dropLeadingZeros text ↔ character ∈ text := by
  induction text with
  | nil => rfl
  | cons first rest ih =>
    rw [dropLeadingZeros]
    split
    next zero => simp [ih, zero.1, nonzero]
    · rfl

/-- A digit behind a lone zero takes its place. -/
theorem dropLeadingZeros_concat {text : Text} (typed : text ≠ []) (character : Char) :
    dropLeadingZeros (text ++ [character]) =
      if dropLeadingZeros text = untouched ∧ character.isDigit then [character]
      else dropLeadingZeros text ++ [character] := by
  induction text with
  | nil => exact absurd rfl typed
  | cons first rest ih =>
    cases rest with
    | nil => simp [dropLeadingZeros, untouched]
    | cons next rest =>
      by_cases zero : first = '0' ∧ next.isDigit = true
      · have dropped (others : Text) :
            dropLeadingZeros (first :: next :: others) = dropLeadingZeros (next :: others) :=
          if_pos zero
        rw [List.cons_append, List.cons_append, dropped, dropped]
        exact ih (List.cons_ne_nil _ _)
      · have kept (others : Text) :
            dropLeadingZeros (first :: next :: others) = first :: next :: others :=
          if_neg zero
        rw [List.cons_append, List.cons_append, kept, kept, if_neg (by simp [untouched])]
        rfl

/-- What an untouched operand has become. With nothing typed it is still untouched. -/
def typedNumeral (typed : Text) : Text :=
  dropLeadingZeros ('0' :: dropLaterPoints (typed.filter isNumeric))

theorem canonicalNumeral_eq {typed : Text} (some : typed.any isNumeric = true) :
    canonicalNumeral typed = typedNumeral typed := by
  unfold canonicalNumeral typedNumeral
  cases shape : dropLaterPoints (typed.filter isNumeric) with
  | nil =>
    obtain ⟨character, member, numeric⟩ := List.any_eq_true.mp some
    have kept : character ∈ dropLaterPoints (typed.filter isNumeric) := by
      rw [mem_dropLaterPoints_iff]
      exact List.mem_filter.mpr ⟨member, numeric⟩
    rw [shape] at kept
    cases kept
  | cons character rest =>
    have member : character ∈ typed.filter isNumeric := by
      rw [← mem_dropLaterPoints_iff, shape]
      exact List.mem_cons_self
    have numeric := (List.mem_filter.mp member).2
    rcases Bool.or_eq_true_iff.mp numeric with digit | point
    · have other : character ≠ '.' := by
        rintro rfl
        cases digit
      simp [leadWithZero, dropLeadingZeros, digit, other]
    · rw [beq_iff_eq.mp point]
      rfl

/-- One more digit or point keeps the operand the numeral of what was typed. -/
theorem enter_typedNumeral (typed : Text) {character : Char}
    (numeric : isNumeric character = true) :
    enter (typedNumeral typed) character = typedNumeral (typed ++ [character]) := by
  have pointed : '.' ∈ typedNumeral typed ↔ '.' ∈ typed.filter isNumeric := by
    simp [typedNumeral, mem_dropLeadingZeros_iff, mem_dropLaterPoints_iff]
  have digit : character ≠ '.' ↔ character.isDigit = true := by
    constructor
    · intro other
      simpa [isNumeric, other] using numeric
    · rintro digit rfl
      cases digit
  have longer : typedNumeral (typed ++ [character]) =
      dropLeadingZeros ('0' :: if character = '.' ∧ '.' ∈ typed.filter isNumeric
        then dropLaterPoints (typed.filter isNumeric)
        else dropLaterPoints (typed.filter isNumeric) ++ [character]) := by
    have kept : (typed ++ [character]).filter isNumeric =
        typed.filter isNumeric ++ [character] := by simp [numeric]
    rw [typedNumeral, kept, dropLaterPoints_concat]
  rw [longer, enter]
  by_cases rejected : character = '.' ∧ '.' ∈ typed.filter isNumeric
  · rw [if_pos rejected, if_pos ⟨rejected.1, pointed.mpr rejected.2⟩]
    rfl
  · rw [if_neg rejected, if_neg fun both => rejected ⟨both.1, pointed.mp both.2⟩,
      ← List.cons_append, dropLeadingZeros_concat (List.cons_ne_nil _ _)]
    simp only [digit, typedNumeral]

theorem typedNumeral_ne_failure (typed : Text) : typedNumeral typed ≠ failure := by
  intro same
  have letter : 'E' ∈ typedNumeral typed := by
    rw [same]
    decide
  have absent : ¬ isNumeric 'E' = true := by decide
  simp [typedNumeral, mem_dropLeadingZeros_iff, mem_dropLaterPoints_iff, absent] at letter

theorem typedNumeral_of_none {typed : Text} (none : typed.any isNumeric = false) :
    typedNumeral typed = untouched := by
  have kept : typed.filter isNumeric = [] := by simpa [List.filter_eq_nil_iff] using none
  rw [typedNumeral, kept]
  rfl

theorem foldl_enter_untouched {typed : Text}
    (numeric : ∀ character ∈ typed, isNumeric character = true) :
    typed.foldl enter untouched = typedNumeral typed := by
  induction typed using List.reverseRecOn with
  | nil => rfl
  | append_singleton typed character ih =>
    obtain ⟨before, last⟩ := List.forall_mem_append.mp numeric
    rw [List.foldl_concat, ih before, enter_typedNumeral _ (last _ List.mem_cons_self)]

/-- Points that are rejected might as well not be typed. -/
theorem typedNumeral_dropLaterPoints (typed : Text) :
    typedNumeral (dropLaterPoints (typed.filter isNumeric)) = typedNumeral typed := by
  have numeric : (dropLaterPoints (typed.filter isNumeric)).filter isNumeric =
      dropLaterPoints (typed.filter isNumeric) := by
    rw [List.filter_eq_self]
    intro character member
    exact (List.mem_filter.mp ((mem_dropLaterPoints_iff _ _).mp member)).2
  rw [typedNumeral, numeric, dropLaterPoints_dropLaterPoints, typedNumeral]

/-- A digit among the figures makes a literal of them. -/
theorem exists_literal_of_digit {typed : Text} (digits : typed.any Char.isDigit = true) :
    ∃ literal : Literal, literal.text = dropLaterPoints (typed.filter isNumeric) := by
  obtain ⟨digit, member, isDigit⟩ := List.any_eq_true.mp digits
  have kept : digit ∈ dropLaterPoints (typed.filter isNumeric) := by
    rw [mem_dropLaterPoints_iff]
    exact List.mem_filter.mpr ⟨member, by simp [isNumeric, isDigit]⟩
  have figures : isFigures (dropLaterPoints (typed.filter isNumeric)) = true := by
    rw [isFigures_iff]
    constructor
    · intro character inside
      exact (List.mem_filter.mp ((mem_dropLaterPoints_iff _ _).mp inside)).2
    · exact count_dropLaterPoints _
  rcases eq_point_or_exists_literal (List.ne_nil_of_mem kept) figures with point | found
  · rw [point, List.mem_singleton] at kept
    subst kept
    cases isDigit
  · exact found

namespace Calculator

variable {calculator : Calculator}

/-- A character that is neither a digit nor a point changes nothing, and the first that is one
starts afresh from a failure. -/
theorem foldl_typeDigit_eq (fresh : recovered calculator.current = untouched) (typed : Text) :
    typed.foldl typeDigit calculator =
      if typed.any isNumeric then { calculator with current := typedNumeral typed }
      else calculator := by
  induction typed using List.reverseRecOn with
  | nil => rfl
  | append_singleton typed character ih =>
    rw [List.foldl_concat, ih]
    by_cases numeric : isNumeric character = true
    · have any : (typed ++ [character]).any isNumeric = true := by simp [numeric]
      rw [if_pos any, typeDigit_eq _ numeric, ← enter_typedNumeral _ numeric]
      cases some : typed.any isNumeric with
      | true => simp [recovered, typedNumeral_ne_failure]
      | false => simp [fresh, typedNumeral_of_none some]
    · have kept : (typed ++ [character]).filter isNumeric = typed.filter isNumeric := by
        simp [numeric]
      have same : typedNumeral (typed ++ [character]) = typedNumeral typed := by
        rw [typedNumeral, kept, typedNumeral]
      simp [typeDigit, numeric, same]

/-- What is typed into an untouched operand, or after a failure, leaves its canonical numeral there
and touches nothing else. With a digit among it, that numeral is read as the number that the typed
literal stands for. -/
theorem foldl_typeDigit_canonical
    (fresh : calculator.current = untouched ∨ calculator.current = failure) {typed : Text}
    (some : typed.any isNumeric = true) :
    typed.foldl typeDigit calculator =
        { calculator with current := canonicalNumeral typed } ∧
      (typed.any Char.isDigit = true →
        ∃ literal : Literal, literal.text = dropLaterPoints (typed.filter isNumeric) ∧
          readOperand (canonicalNumeral typed) = .ok literal.value) := by
  have fresh' : recovered calculator.current = untouched := by
    rcases fresh with same | same
    · rw [same]
      rfl
    · rw [same]
      rfl
  constructor
  · rw [foldl_typeDigit_eq fresh', if_pos some, canonicalNumeral_eq some]
  · intro digits
    obtain ⟨literal, spelled⟩ := exists_literal_of_digit digits
    obtain ⟨entered, same, value, -⟩ := literal.exists_foldl_enter (.inl rfl)
    refine ⟨literal, spelled, ?_⟩
    rw [foldl_enter_untouched literal.isNumeric_of_mem_text, spelled,
      typedNumeral_dropLaterPoints] at same
    rw [canonicalNumeral_eq some, same, ← value]
    simp [readOperand, Literal.read?_text]

/-- After a failure, letters and a second point are typed among the digits. -/
theorem foldl_typeDigit_canonical_afterFailure :
    let calculator : Calculator := ⟨"2+".toList, failure, .degrees, true⟩
    let typed : Text := "a00.7.5".toList
    typed.foldl typeDigit calculator = { calculator with current := "0.75".toList } ∧
      ∃ literal : Literal, literal.text = "00.75".toList ∧
        readOperand "0.75".toList = .ok literal.value := by
  intro calculator typed
  obtain ⟨run, read⟩ := @foldl_typeDigit_canonical calculator (.inr rfl) typed (by decide)
  exact ⟨run, read (by decide)⟩

end Calculator
end PocketCalc
