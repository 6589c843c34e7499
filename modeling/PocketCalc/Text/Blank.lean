/-!
# Text and its blanks

A text is a list of characters. A blank is a character of the Unicode property White_Space, and
the words of a text are its longest runs without blanks. A word is never empty and holds no blank.
-/
namespace PocketCalc

abbrev Text := List Char

/-- Whether a code point lies in one of the ranges, each given by its first and last code point.
-/
def inRanges (ranges : List (Nat × Nat)) (code : Nat) : Bool :=
  ranges.any fun range => range.1 ≤ code && code ≤ range.2

def blankRanges : List (Nat × Nat) :=
  [(0x0009, 0x000D), (0x0020, 0x0020), (0x0085, 0x0085), (0x00A0, 0x00A0), (0x1680, 0x1680),
   (0x2000, 0x200A), (0x2028, 0x2029), (0x202F, 0x202F), (0x205F, 0x205F), (0x3000, 0x3000)]

def isBlank (character : Char) : Bool :=
  inRanges blankRanges character.toNat

namespace Text

def allBlank (text : Text) : Bool :=
  text.all isBlank

/-- Whether a word would end just before this text. -/
def endsWord : Text → Bool
  | [] => true
  | character :: _ => isBlank character

def words : Text → List Text
  | [] => []
  | character :: rest =>
    if isBlank character then words rest
    else if endsWord rest then [character] :: words rest
    else (words rest).modifyHead (character :: ·)

theorem words_blank_cons {blank : Char} (h : isBlank blank = true) (text : Text) :
    words (blank :: text) = words text := by
  rw [words, if_pos h]

theorem words_append {word : Text} (nonempty : word ≠ [])
    (clean : ∀ character ∈ word, isBlank character = false) {rest : Text}
    (stop : endsWord rest = true) : words (word ++ rest) = word :: words rest := by
  induction word with
  | nil => exact absurd rfl nonempty
  | cons character others ih =>
    have first := clean character (by simp)
    rw [List.cons_append, words, if_neg (by simp [first])]
    cases others with
    | nil => rw [List.nil_append, if_pos stop]
    | cons next tail =>
      have second := clean next (by simp)
      rw [List.cons_append, endsWord, if_neg (by simp [second]), ← List.cons_append,
        ih (by simp) (fun c member => clean c (List.mem_cons_of_mem _ member))]
      rfl

theorem endsWord_of_allBlank {text : Text} (blank : text.allBlank = true) :
    endsWord text = true := by
  cases text with
  | nil => rfl
  | cons character rest => exact List.all_eq_true.mp blank character (by simp)

theorem endsWord_append_blank_cons {blank : Char} (h : isBlank blank = true) (front back : Text) :
    endsWord (front ++ blank :: back) = endsWord front := by
  cases front with
  | nil => exact h
  | cons => rfl

theorem words_eq_nil_iff (text : Text) : text.words = [] ↔ text.allBlank = true := by
  induction text with
  | nil => simp [words, allBlank]
  | cons character rest ih =>
    by_cases blank : isBlank character = true
    · rw [words_blank_cons blank, ih]
      simp [allBlank, blank]
    · rw [words, if_neg blank]
      by_cases stop : endsWord rest = true
      · simp [stop, allBlank, blank]
      · have found : words rest ≠ [] := fun none => stop (endsWord_of_allBlank (ih.mp none))
        obtain ⟨word, later, shape⟩ := List.exists_cons_of_ne_nil found
        simp [stop, shape, allBlank, blank]

/-- A blank divides a text, and no word runs across it. -/
theorem words_append_blank_cons {blank : Char} (h : isBlank blank = true) (front back : Text) :
    words (front ++ blank :: back) = words front ++ words back := by
  induction front with
  | nil => exact words_blank_cons h back
  | cons character rest ih =>
    rw [List.cons_append, words, words, ih, endsWord_append_blank_cons h]
    by_cases gap : isBlank character = true
    · rw [if_pos gap, if_pos gap]
    · rw [if_neg gap, if_neg gap]
      by_cases stop : endsWord rest = true
      · rw [if_pos stop, if_pos stop, List.cons_append]
      · rw [if_neg stop, if_neg stop]
        -- The word that begins here goes on, so the front has a first word.
        have found : words rest ≠ [] := fun none =>
          stop (endsWord_of_allBlank ((words_eq_nil_iff rest).mp none))
        obtain ⟨word, later, shape⟩ := List.exists_cons_of_ne_nil found
        rw [shape]
        rfl

end Text
end PocketCalc
