import PocketCalc.CommandLine
import PocketCalc.Proofs.ByteFraming

/-!
# Keys as arguments

Keys may be given as arguments or as a line of a session. The arguments are one line, with a space
between each two of them, and they are answered as a session answers that line. Only an unknown key
is told apart: a session writes of it and goes on, and the command fails.
-/
namespace PocketCalc

open Session (encode lineFeed)

namespace Session

theorem lineFeed_not_mem_encode {line : Text} (unbroken : '\n' ∉ line) :
    lineFeed ∉ encode line := by
  intro member
  obtain ⟨character, inside, byte⟩ := List.mem_flatMap.mp member
  have single : String.utf8EncodeChar character = [lineFeed] :=
    utf8EncodeChar_of_mem byte (by decide)
  have same : encode [character] = encode ['\n'] := by
    rw [encode_cons, single]
    rfl
  have decoded := congrArg decode? same
  rw [decode?_encode, decode?_encode] at decoded
  cases decoded
  exact unbroken inside

/-- A session over one line writes the display, or the word that is unknown. -/
theorem output_run_encode {line : Text} (unbroken : '\n' ∉ line) (written : line.allBlank = false)
    (calculator : Calculator) :
    (run calculator (encode line)).output =
      match Key.ofLine line with
      | .ok pressed => (calculator.pressAll pressed).render
      | .error error => report error.message := by
  have shown : ¬ line.allBlank = true := by simp [written]
  rw [run_of_not_mem (lineFeed_not_mem_encode unbroken), runLines, decode?_encode]
  dsimp only
  rw [answer, if_neg shown]
  cases Key.ofLine line <;> simp [runLines]

end Session

namespace Request

theorem joinWords_cons_cons (first second : Text) (others : List Text) :
    joinWords (first :: second :: others) = first ++ ' ' :: joinWords (second :: others) := rfl

theorem words_joinWords (arguments : List Text) :
    (joinWords arguments).words = arguments.flatMap Text.words := by
  induction arguments with
  | nil => rfl
  | cons first rest ih =>
    cases rest with
    | nil => simp [joinWords]
    | cons second others =>
      rw [joinWords_cons_cons, Text.words_append_blank_cons (by decide), ih]
      rfl

theorem not_mem_joinWords {arguments : List Text}
    (unbroken : ∀ argument ∈ arguments, '\n' ∉ argument) : '\n' ∉ joinWords arguments := by
  induction arguments with
  | nil => exact List.not_mem_nil
  | cons first rest ih =>
    obtain ⟨here, others⟩ := List.forall_mem_cons.mp unbroken
    cases rest with
    | nil => exact here
    | cons second later =>
      rw [joinWords_cons_cons]
      simp [here, ih others]

/-- Any texts can be handed over as keys, behind a `--`. -/
theorem exists_readWords (degrees inverse : Bool) (keys : List Text) :
    ∃ words, readWords words = .ok ⟨degrees, inverse, none, keys⟩ := by
  refine ⟨(if degrees then ["-d".toList] else []) ++ (if inverse then ["-i".toList] else []) ++
    "--".toList :: keys, ?_⟩
  cases degrees <;> cases inverse <;> rfl

/-- Keys are answered by their words. -/
theorem outcome_keys (degrees inverse : Bool) {keys : List Text} (typed : keys ≠ [])
    (input : List UInt8) :
    (Arguments.request ⟨degrees, inverse, none, keys⟩).outcome input =
      match Key.ofWords (keys.flatMap Text.words) with
      | .ok pressed =>
        .finished true
          ((Calculator.start (if degrees then .degrees else .radians) inverse).pressAll
            pressed).render []
      | .error error => .finished false [] (report error.message) := by
  cases keys with
  | nil => exact absurd rfl typed
  | cons first others =>
    rw [← words_joinWords, ← Key.ofLine]
    rfl

theorem ne_nil_of_words_ne_nil {keys : List Text} (written : keys.flatMap Text.words ≠ []) :
    keys ≠ [] := by
  rintro rfl
  exact written rfl

/-- Keys that are handed over as arguments, by whatever reading of the words. If they are known,
the command succeeds and writes what a session over them as one line writes. If one of their words
is unknown, it fails and reports what the session writes, and writes nothing else. How the words
are spread over the arguments does not matter. -/
theorem runCommand_arguments (degrees inverse : Bool) {keys : List Text}
    (unbroken : ∀ argument ∈ keys, '\n' ∉ argument)
    (written : (joinWords keys).allBlank = false) (input : List UInt8) :
    let line := joinWords keys
    let calculator := Calculator.start (if degrees then .degrees else .radians) inverse
    let session := Session.run calculator (encode line)
    let outcome := (Arguments.request ⟨degrees, inverse, none, keys⟩).outcome input
    (∀ pressed, Key.ofLine line = .ok pressed →
        outcome = .finished true session.output [] ∧ outcome.status = 0) ∧
      (∀ error, Key.ofLine line = .error error →
        outcome = .finished false [] session.output ∧ outcome.status = 1 ∧
          session.output = "scicalc: unknown key: ".toList ++ error.name ++ "\n".toList) ∧
      (∀ read words keys', read words = .ok ⟨degrees, inverse, none, keys'⟩ →
        keys'.flatMap Text.words = keys.flatMap Text.words →
        runCommandBy read words input = outcome) ∧
      ∃ words, readWords words = .ok ⟨degrees, inverse, none, keys⟩ := by
  intro line calculator session outcome
  have some : keys.flatMap Text.words ≠ [] := by
    rw [← words_joinWords, ne_eq, Text.words_eq_nil_iff, written]
    exact Bool.false_ne_true
  have commanded : outcome = _ := outcome_keys degrees inverse (ne_nil_of_words_ne_nil some) input
  have answered : session.output = _ :=
    Session.output_run_encode (not_mem_joinWords unbroken) written calculator
  have read : Key.ofLine line = Key.ofWords (keys.flatMap Text.words) := by
    rw [Key.ofLine, words_joinWords]
  refine ⟨?_, ?_, ?_, exists_readWords degrees inverse keys⟩
  · intro pressed known
    rw [known] at answered
    rw [← read, known] at commanded
    rw [commanded, answered]
    exact ⟨rfl, rfl⟩
  · intro error unknown
    rw [unknown] at answered
    rw [← read, unknown] at commanded
    rw [commanded, answered]
    exact ⟨rfl, rfl, Session.report_message error.name⟩
  · intro reading words keys' handed same
    have typed : keys' ≠ [] := ne_nil_of_words_ne_nil (same ▸ some)
    rw [runCommandBy, handed, commanded, ← same]
    exact outcome_keys degrees inverse typed input

/-- A product in three arguments, one of them empty, and the same words in three others; and an
unknown word in the midst of an argument. -/
theorem runCommand_arguments_product :
    runCommand ["12 ×".toList, "-d".toList, [], "4".toList] [] =
        .finished true "12×\n4\n".toList [] ∧
      runCommand ["-d".toList, "--".toList, "12".toList, "×".toList, "4".toList] [] =
        .finished true "12×\n4\n".toList [] ∧
      runCommand ["7".toList, "5 sinh x".toList] [] =
        .finished false [] "scicalc: unknown key: sinh\n".toList := by
  obtain ⟨known, -, spread, -⟩ := runCommand_arguments true false
    (show ∀ argument ∈ ["12 ×".toList, [], "4".toList], '\n' ∉ argument by decide) (by decide) []
  obtain ⟨-, unknown, handed, -⟩ := runCommand_arguments false false
    (show ∀ argument ∈ ["7".toList, "5 sinh x".toList], '\n' ∉ argument by decide) (by decide) []
  have written := (known [.digit '1', .digit '2', .operator '×', .digit '4'] rfl).1
  have failed := unknown ⟨"sinh".toList⟩ rfl
  refine ⟨?_, ?_, ?_⟩
  · have read : readWords ["12 ×".toList, "-d".toList, [], "4".toList] =
        .ok ⟨true, false, none, ["12 ×".toList, [], "4".toList]⟩ := rfl
    rw [runCommand, spread readWords _ _ read rfl, written]
    decide +kernel
  · have read : readWords ["-d".toList, "--".toList, "12".toList, "×".toList, "4".toList] =
        .ok ⟨true, false, none, ["12".toList, "×".toList, "4".toList]⟩ := rfl
    rw [runCommand, spread readWords _ _ read rfl, written]
    decide +kernel
  · have read : readWords ["7".toList, "5 sinh x".toList] =
        .ok ⟨false, false, none, ["7".toList, "5 sinh x".toList]⟩ := rfl
    rw [runCommand, handed readWords _ _ read rfl, failed.1, failed.2.2]
    rfl

end Request

end PocketCalc
