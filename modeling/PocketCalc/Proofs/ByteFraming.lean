import PocketCalc.Proofs.LineAnswers

/-!
# The framing of a session's bytes

An input is cut at its line feeds and at nothing else: a line feed is never part of a longer
encoding, so the cuts do not decide whether the input is UTF-8. A carriage return at the end of a
line is a blank to the words of the line, whether the framing takes it off or not.
-/
namespace PocketCalc

theorem Text.words_concat_blank {blank : Char} (h : isBlank blank = true) (text : Text) :
    Text.words (text ++ [blank]) = text.words := by
  rw [words_append_blank_cons h, words, List.append_nil]

namespace Session

/-- Every input is a line without a line feed, or such a line, a line feed and an input. -/
theorem line_induction {motive : List UInt8 → Prop}
    (last : ∀ line, lineFeed ∉ line → motive line)
    (next : ∀ line rest, lineFeed ∉ line → motive rest → motive (line ++ lineFeed :: rest))
    (input : List UInt8) : motive input := by
  -- The bytes of the line that is read are kept in front of the rest.
  have all (rest : List UInt8) : ∀ line, lineFeed ∉ line → motive (line ++ rest) := by
    induction rest with
    | nil =>
      intro line clean
      rw [List.append_nil]
      exact last line clean
    | cons byte rest ih =>
      intro line clean
      by_cases feed : byte = lineFeed
      · rw [feed]
        exact next line rest clean (ih [] List.not_mem_nil)
      · have longer := ih (line ++ [byte]) (by simp [clean, Ne.symm feed])
        rwa [List.append_assoc] at longer
  exact all input [] List.not_mem_nil

/-- A line without the carriage return that may end it. -/
def withoutReturn (line : List UInt8) : List UInt8 :=
  if line.getLast? = some carriageReturn then line.dropLast else line

theorem withoutReturn_cons {byte : UInt8} {line : List UInt8} (longer : line ≠ []) :
    withoutReturn (byte :: line) = byte :: withoutReturn line := by
  unfold withoutReturn
  rw [List.getLast?_cons_of_ne_nil longer, List.dropLast_cons_of_ne_nil longer]
  split <;> rfl

theorem lines_of_not_mem {line : List UInt8} (clean : lineFeed ∉ line) (typed : line ≠ []) :
    lines line = [line] := by
  induction line with
  | nil => exact absurd rfl typed
  | cons byte rest ih =>
    obtain ⟨first, others⟩ := not_or.mp (mt List.mem_cons.mpr clean)
    have open' : ¬ (byte = carriageReturn ∧ rest.head? = some lineFeed) := by
      rintro ⟨-, feed⟩
      exact others (List.mem_of_head? feed)
    rw [lines, if_neg (Ne.symm first), if_neg open']
    cases rest with
    | nil => rfl
    | cons second later =>
      rw [ih others (by simp)]
      rfl

theorem lines_append_lineFeed {line : List UInt8} (clean : lineFeed ∉ line) (rest : List UInt8) :
    lines (line ++ lineFeed :: rest) = withoutReturn line :: lines rest := by
  induction line with
  | nil => rw [List.nil_append, lines, if_pos rfl]; rfl
  | cons byte line ih =>
    obtain ⟨first, others⟩ := not_or.mp (mt List.mem_cons.mpr clean)
    rw [List.cons_append, lines, if_neg (Ne.symm first), ih others]
    cases line with
    | nil =>
      by_cases ended : byte = carriageReturn
      · subst ended
        rfl
      · simp [ended, withoutReturn]
    | cons second later =>
      have inside : second ≠ lineFeed := by
        rintro rfl
        exact others List.mem_cons_self
      have longer : withoutReturn (byte :: second :: later) =
          byte :: withoutReturn (second :: later) := withoutReturn_cons (by simp)
      rw [longer]
      simp [inside]

/-- The words of a line of bytes, if it is text. -/
def lineWords? (line : List UInt8) : Option (List Text) :=
  (decode? line).map Text.words

theorem lineWords?_return (line : List UInt8) :
    lineWords? (line ++ [carriageReturn]) = lineWords? line := by
  have single : String.utf8EncodeChar '\r' = [carriageReturn] := rfl
  have split := decode?_append_cons single (by decide) line []
  have empty : decode? [] = some [] := decode?_encode []
  rw [lineWords?, split, empty]
  cases decoded : decode? line with
  | none => simp [lineWords?, decoded]
  | some text =>
    simp [lineWords?, decoded, Text.words_concat_blank (by decide : isBlank '\r' = true)]

theorem lineWords?_withoutReturn (line : List UInt8) :
    lineWords? (withoutReturn line) = lineWords? line := by
  unfold withoutReturn
  split
  next ended =>
    obtain ⟨front, rfl⟩ := List.getLast?_eq_some_iff.mp ended
    rw [List.dropLast_concat, lineWords?_return]
  · rfl

theorem answer_congr {first second : Text} (same : first.words = second.words)
    (calculator : Calculator) : answer calculator first = answer calculator second := by
  have blank : first.allBlank = second.allBlank := by
    rw [Bool.eq_iff_iff, ← Text.words_eq_nil_iff, ← Text.words_eq_nil_iff, same]
  have keys : Key.ofLine first = Key.ofLine second := by
    rw [Key.ofLine, Key.ofLine, same]
  rw [answer, answer, blank, keys]

/-- A session sees no more of a line than its words. -/
theorem runLines_cons_congr {first second : List UInt8} {rest others : List (List UInt8)}
    (same : lineWords? first = lineWords? second)
    (later : ∀ calculator, runLines calculator rest = runLines calculator others)
    (calculator : Calculator) :
    runLines calculator (first :: rest) = runLines calculator (second :: others) := by
  unfold lineWords? at same
  rw [runLines, runLines]
  cases decoded : decode? first with
  | none =>
    rw [decoded] at same
    rw [Option.map_eq_none_iff.mp same.symm]
  | some text =>
    rw [decoded] at same
    obtain ⟨text', decoded', words⟩ := Option.map_eq_some_iff.mp same.symm
    rw [decoded']
    dsimp only
    rw [answer_congr words, later]

/-- The line behind the last line feed is answered like any other, and is blank if it is empty. -/
theorem run_of_not_mem {line : List UInt8} (clean : lineFeed ∉ line) (calculator : Calculator) :
    run calculator line = runLines calculator [line] := by
  by_cases typed : line = []
  · have blank : decode? [] = some [] := decode?_encode []
    rw [typed, runLines, blank]
    rfl
  · rw [run, lines_of_not_mem clean typed]

/-- A line is answered alike with a carriage return at its end. -/
theorem run_append_lineFeed {line : List UInt8} (clean : lineFeed ∉ line) (rest : List UInt8)
    (calculator : Calculator) :
    run calculator (line ++ lineFeed :: rest) = runLines calculator (line :: lines rest) := by
  rw [run, lines_append_lineFeed clean]
  exact runLines_cons_congr (lineWords?_withoutReturn line) (fun _ => rfl) calculator

/-- A line feed joins two texts. -/
theorem isValidUTF8_append_lineFeed (line rest : List UInt8) :
    (line ++ lineFeed :: rest).toByteArray.IsValidUTF8 ↔
      line.toByteArray.IsValidUTF8 ∧ rest.toByteArray.IsValidUTF8 := by
  have single : String.utf8EncodeChar '\n' = [lineFeed] := rfl
  rw [← isSome_decode?, ← isSome_decode?, ← isSome_decode?,
    decode?_append_cons single (by decide)]
  cases decode? line <;> simp

/-- The texts of the lines before the first that is not text. -/
def leadingTexts (input : List UInt8) : List Text :=
  (((input.splitOn lineFeed).map decode?).takeWhile Option.isSome).filterMap id

theorem leadingTexts_of_not_mem {line : List UInt8} (clean : lineFeed ∉ line) :
    leadingTexts line = (decode? line).toList := by
  rw [leadingTexts, List.splitOn_eq_singleton clean]
  cases decoded : decode? line <;> simp [decoded]

theorem leadingTexts_append_lineFeed {line : List UInt8} (clean : lineFeed ∉ line)
    (rest : List UInt8) :
    leadingTexts (line ++ lineFeed :: rest) =
      match decode? line with
      | some text => text :: leadingTexts rest
      | none => [] := by
  rw [leadingTexts, List.splitOn_append_cons_self_of_not_mem clean]
  cases decoded : decode? line <;> simp [decoded, leadingTexts]

theorem run_eq_leadingTexts (calculator : Calculator) (input : List UInt8) :
    run calculator input =
      ⟨calculator.pressAll (acceptedKeys (leadingTexts input)),
        (writings calculator (leadingTexts input)).flatten,
        if input.toByteArray.IsValidUTF8 then none else some .notText⟩ := by
  induction input using line_induction generalizing calculator with
  | last line clean =>
    have valid := isSome_decode? line
    rw [run_of_not_mem clean, leadingTexts_of_not_mem clean, runLines_cons]
    cases decoded : decode? line with
    | none =>
      rw [if_neg (by simp [← valid, decoded])]
      rfl
    | some text =>
      rw [if_pos (by simp [← valid, decoded])]
      simp [runLines, writings]
  | next line rest clean ih =>
    have valid := isSome_decode? line
    have joined := isValidUTF8_append_lineFeed line rest
    rw [run_append_lineFeed clean, leadingTexts_append_lineFeed clean, runLines_cons]
    cases decoded : decode? line with
    | none =>
      have failed : ¬ (line ++ lineFeed :: rest).toByteArray.IsValidUTF8 := by
        rw [joined, ← valid, decoded]
        simp
      rw [if_neg failed]
      rfl
    | some text =>
      have same : (line ++ lineFeed :: rest).toByteArray.IsValidUTF8 ↔
          rest.toByteArray.IsValidUTF8 := by
        rw [joined, ← valid, decoded]
        simp
      dsimp only
      rw [← run, ih, writings_cons, acceptedKeys_cons text (leadingTexts rest),
        Calculator.pressAll_append]
      simp only [same, List.flatten_cons]

/-- The input with a carriage return before each line feed. -/
def withReturns (input : List UInt8) : List UInt8 :=
  input.flatMap fun byte => if byte = lineFeed then [carriageReturn, lineFeed] else [byte]

theorem withReturns_of_not_mem {line : List UInt8} (clean : lineFeed ∉ line) :
    withReturns line = line := by
  induction line with
  | nil => rfl
  | cons byte line ih =>
    obtain ⟨first, others⟩ := not_or.mp (mt List.mem_cons.mpr clean)
    have kept := ih others
    unfold withReturns at kept ⊢
    rw [List.flatMap_cons, if_neg (Ne.symm first), kept]
    rfl

theorem withReturns_append_lineFeed {line : List UInt8} (clean : lineFeed ∉ line)
    (rest : List UInt8) :
    withReturns (line ++ lineFeed :: rest) =
      (line ++ [carriageReturn]) ++ lineFeed :: withReturns rest := by
  have kept := withReturns_of_not_mem clean
  unfold withReturns at kept ⊢
  rw [List.flatMap_append, kept]
  simp

theorem run_withReturns (calculator : Calculator) (input : List UInt8) :
    run calculator (withReturns input) = run calculator input := by
  induction input using line_induction generalizing calculator with
  | last line clean => rw [withReturns_of_not_mem clean]
  | next line rest clean ih =>
    have apart : lineFeed ≠ carriageReturn := by decide
    have ended : lineFeed ∉ line ++ [carriageReturn] := by
      simp [clean, apart]
    rw [withReturns_append_lineFeed clean, run_append_lineFeed ended, run_append_lineFeed clean]
    exact runLines_cons_congr (lineWords?_return line) ih calculator

theorem run_concat_lineFeed (calculator : Calculator) (input : List UInt8) :
    run calculator (input ++ [lineFeed]) = run calculator input := by
  induction input using line_induction generalizing calculator with
  | last line clean =>
    rw [run_append_lineFeed clean, run_of_not_mem clean]
    rfl
  | next line rest clean ih =>
    rw [List.append_assoc, List.cons_append, run_append_lineFeed clean, run_append_lineFeed clean]
    exact runLines_cons_congr rfl ih calculator

/-- An input is cut at its line feeds. A session answers the lines before the first that is not
text, whatever follows them, and ends without an error if and only if its bytes are UTF-8. Carriage
returns before the line feeds and a line feed at the end change nothing. -/
theorem run_framing (calculator : Calculator) (input : List UInt8) :
    run calculator input =
        ⟨calculator.pressAll (acceptedKeys (leadingTexts input)),
          (writings calculator (leadingTexts input)).flatten,
          if input.toByteArray.IsValidUTF8 then none else some .notText⟩ ∧
      run calculator (withReturns input) = run calculator input ∧
      run calculator (input ++ [lineFeed]) = run calculator input :=
  ⟨run_eq_leadingTexts calculator input, run_withReturns calculator input,
    run_concat_lineFeed calculator input⟩

end Session
end PocketCalc
