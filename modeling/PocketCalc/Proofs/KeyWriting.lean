import PocketCalc.Proofs.Keyable
import PocketCalc.Proofs.LineAnswers
import PocketCalc.Proofs.Rendering

/-!
# Writings of key lists

A list of keys is written with any name for each of them. Blanks may stand anywhere between the
names, and must stand wherever one of two neighbours has a name of more than one character. A line
is read as a list of keys exactly if it is a writing of the list, and refused with the first of its
words that is neither a name nor made of names of one character.
-/
namespace PocketCalc.Key

/-- What a key is called. -/
inductive Named : Text → Key → Prop
  | listed {name : Text} {key : Key} (entry : (name, key) ∈ names) : Named name key
  | digit {character : Char} (numeric : isNumeric character = true) :
      Named [character] (.digit character)
  | operator {character : Char} (known : character ∈ operators) :
      Named [character] (.operator character)

/-- A line that writes keys by their names. -/
inductive Writes : List (Text × Key) → Text → Prop
  | nothing {gap : Text} (blank : gap.allBlank = true) : Writes [] gap
  | key {name : Text} {key : Key} {others : List (Text × Key)} {gap line : Text}
      (blank : gap.allBlank = true) (named : Named name key) (rest : Writes others line)
      (parted : ∀ next ∈ others.head?,
        line.head?.any isBlank = true ∨ name.length = 1 ∧ next.1.length = 1) :
      Writes ((name, key) :: others) (gap ++ name ++ line)

/-- A word that is no name, with a character that is none either. -/
def Unknown (word : Text) : Prop :=
  (∀ key, ¬ Named word key) ∧ ∃ character ∈ word, ∀ key, ¬ Named [character] key

theorem ofName?_eq_some_iff {name : Text} {key : Key} :
    ofName? name = some key ↔ Named name key := by
  constructor
  · intro known
    unfold ofName? at known
    split at known
    next found =>
      obtain rfl := Option.some.inj known
      obtain ⟨before, after, same, -⟩ := List.lookup_eq_some_iff.mp found
      apply Named.listed
      rw [same]
      simp
    next character _ =>
      unfold ofCharacter? at known
      split at known
      next numeric =>
        cases known
        exact .digit numeric
      · split at known
        next operator =>
          cases known
          exact .operator operator
        · cases known
    · cases known
  · intro named
    cases named with
    | listed entry =>
      have all : ∀ entry ∈ names, ofName? entry.1 = some entry.2 := by decide
      exact all _ entry
    | digit numeric => exact ofName?_numeric numeric
    | operator known =>
      have all : operators.all (fun sign => ofName? [sign] = some (.operator sign)) = true := by
        decide
      simpa using List.all_eq_true.mp all _ known

theorem ofName?_eq_none_iff {name : Text} : ofName? name = none ↔ ∀ key, ¬ Named name key := by
  simp [Option.eq_none_iff_forall_ne_some, ofName?_eq_some_iff]

theorem Named.ne_nil {name : Text} {key : Key} (named : Named name key) : name ≠ [] := by
  cases named with
  | listed entry =>
    have all : ∀ entry ∈ names, entry.1 ≠ [] := by decide
    exact all _ entry
  | digit | operator => simp

/-- No blank is a part of a name. -/
theorem Named.clean {name : Text} {key : Key} (named : Named name key) :
    ∀ character ∈ name, isBlank character = false := by
  cases named with
  | listed entry =>
    have all : names.all (fun entry => !entry.1.any isBlank) = true := by decide
    simpa using List.all_eq_true.mp all _ entry
  | @digit character numeric =>
    simp only [List.forall_mem_singleton, Bool.eq_false_iff]
    intro blank
    rw [not_isNumeric_of_isBlank blank] at numeric
    cases numeric
  | operator known =>
    have all : operators.all (!isBlank ·) = true := by decide
    simpa using List.all_eq_true.mp all _ known

/-- Characters that are names in a row never spell a longer name. -/
theorem ofName?_of_spelled {word : Text} {keys : List Key} (spelled : spelled? word = some keys)
    (long : word.length ≠ 1) : ofName? word = none := by
  rw [ofName?_eq_none_iff]
  intro key named
  cases named with
  | listed entry =>
    have all : names.all (fun entry => entry.1.length = 1 || (spelled? entry.1).isNone) = true := by
      decide
    have apart := List.all_eq_true.mp all _ entry
    simp [long, spelled] at apart
  | digit | operator => exact long rfl

/-- A word of names is read name by name, whether or not it is one name. -/
theorem ofWord_of_spelled {word : Text} {keys : List Key} (spelled : spelled? word = some keys) :
    ofWord word = .ok keys := by
  unfold ofWord
  by_cases single : word.length = 1
  · obtain ⟨character, rfl⟩ := List.length_eq_one_iff.mp single
    rw [spelled?] at spelled
    cases named : ofName? [character] with
    | none => simp [named] at spelled
    | some key =>
      simp only [named, spelled?, Option.some.injEq] at spelled
      rw [← spelled]
  · rw [ofName?_of_spelled spelled single, spelled]

theorem isUnknown_iff {word : Text} : isUnknown word = true ↔ Unknown word := by
  simp [isUnknown, Unknown, ofName?_eq_none_iff]

theorem words_gap {gap : Text} (blank : gap.allBlank = true) (text : Text) :
    (gap ++ text).words = text.words := by
  rw [allBlank_iff] at blank
  induction gap with
  | nil => rfl
  | cons character gap ih =>
    obtain ⟨first, others⟩ := List.forall_mem_cons.mp blank
    rw [List.cons_append, Text.words_blank_cons first, ih others]

theorem endsWord_iff (text : Text) :
    Text.endsWord text = true ↔ ∀ character ∈ text.head?, isBlank character = true := by
  cases text <;> simp [Text.endsWord]

theorem words_cons_cons {first second : Char} {text : Text} (clean : isBlank first = false)
    (clean' : isBlank second = false) :
    Text.words (first :: second :: text) =
      (Text.words (second :: text)).modifyHead (first :: ·) := by
  rw [Text.words, if_neg (by simp [clean]), if_neg (by simp [Text.endsWord, clean'])]

/-- Where a line begins with a name of one character, its first word consists of such names. -/
def BeginsSpelled (line : Text) : Prop :=
  ∃ word words keys, line.words = word :: words ∧ spelled? word = some keys

variable {entries : List (Text × Key)} {line : Text}

theorem Writes.eq_nil (h : Writes entries line) (empty : line = []) : entries = [] := by
  cases h with
  | nothing => rfl
  | key blank named => simp [named.ne_nil] at empty

/-- Before a blank or the end of the line, a name is a word of its own. -/
theorem ofLine_append {name gap : Text} {key : Key} {keys : List Key}
    (blank : gap.allBlank = true) (named : Named name key) (stop : Text.endsWord line = true)
    (read : ofLine line = .ok keys) : ofLine (gap ++ name ++ line) = .ok (key :: keys) := by
  have known := ofName?_eq_some_iff.mpr named
  unfold ofLine at *
  rw [List.append_assoc, words_gap blank, Text.words_append named.ne_nil named.clean stop,
    ofWords, ofWord, known, read]
  rfl

/-- Before a name of one character, another one joins its word. -/
theorem ofLine_cons {character second : Char} {rest : Text} {key : Key} {keys : List Key}
    (named : Named [character] key) (clean : isBlank second = false)
    (spelled : BeginsSpelled (second :: rest)) (read : ofLine (second :: rest) = .ok keys) :
    ofLine (character :: second :: rest) = .ok (key :: keys) ∧
      BeginsSpelled (character :: second :: rest) := by
  obtain ⟨word, words, first, split, spelled⟩ := spelled
  have known := ofName?_eq_some_iff.mpr named
  have joined : spelled? (character :: word) = some (key :: first) := by
    rw [spelled?, known, spelled]
  have whole : Text.words (character :: second :: rest) = (character :: word) :: words := by
    rw [words_cons_cons (named.clean _ (by simp)) clean, split]
    rfl
  constructor
  · rw [ofLine, split, ofWords, ofWord_of_spelled spelled] at read
    rw [ofLine, whole, ofWords, ofWord_of_spelled joined]
    cases later : ofWords words with
    | error error =>
      rw [later] at read
      cases read
    | ok others =>
      rw [later] at read
      cases read
      rfl
  · exact ⟨_, _, _, whole, joined⟩

/-- A writing is read as the keys that it writes. -/
theorem Writes.ofLine (h : Writes entries line) :
    Key.ofLine line = .ok (entries.map Prod.snd) ∧
      ∀ next ∈ entries.head?, next.1.length = 1 → BeginsSpelled line := by
  induction h with
  | @nothing gap blank =>
    constructor
    · rw [Key.ofLine, (Text.words_eq_nil_iff gap).mpr blank]
      rfl
    · simp
  | @key name key others gap line blank named rest parted ih =>
    obtain ⟨read, spelled⟩ := ih
    by_cases stop : Text.endsWord line = true
    · constructor
      · exact ofLine_append blank named stop read
      · intro next member single
        obtain rfl : (name, key) = next := by simpa using member
        obtain ⟨character, rfl⟩ := List.length_eq_one_iff.mp single
        have known := ofName?_eq_some_iff.mpr named
        refine ⟨[character], line.words, [key], ?_, ?_⟩
        · rw [List.append_assoc, words_gap blank, Text.words_append named.ne_nil named.clean stop]
        · rw [spelled?, known]
          rfl
    · -- The next name stands in the same word, so both have one character.
      cases line with
      | nil => exact absurd rfl stop
      | cons second tail =>
        have clean : isBlank second = false := by simpa [Text.endsWord] using stop
        cases others with
        | nil =>
          cases rest with
          | nothing gapped =>
            rw [(allBlank_iff _).mp gapped second (by simp)] at clean
            cases clean
        | cons next others =>
          rcases parted next rfl with gapped | ⟨single, second'⟩
          · simp [clean] at gapped
          obtain ⟨character, rfl⟩ := List.length_eq_one_iff.mp single
          obtain ⟨joined, begins⟩ := ofLine_cons named clean (spelled next rfl second') read
          have skip : (gap ++ [character] ++ second :: tail).words =
              Text.words (character :: second :: tail) := by
            rw [List.append_assoc, words_gap blank]
            rfl
          unfold Key.ofLine BeginsSpelled at *
          rw [skip]
          exact ⟨joined, fun _ _ _ => begins⟩

/-- A line is blank, or begins with a word behind some blanks. -/
theorem allBlank_or_exists_word (line : Text) :
    line.allBlank = true ∨ ∃ gap word rest, line = gap ++ word ++ rest ∧ gap.allBlank = true ∧
      word ≠ [] ∧ (∀ character ∈ word, isBlank character = false) ∧
      Text.endsWord rest = true := by
  have split := List.takeWhile_append_dropWhile (p := isBlank) (l := line)
  have gapped : Text.allBlank (line.takeWhile isBlank) = true := List.all_takeWhile
  cases body : line.dropWhile isBlank with
  | nil =>
    left
    rw [body, List.append_nil] at split
    rw [← split]
    exact gapped
  | cons first others =>
    right
    have clean : isBlank first = false := by
      have head := List.head?_dropWhile_not isBlank line
      rw [body] at head
      simpa using head
    refine ⟨line.takeWhile isBlank, (first :: others).takeWhile (!isBlank ·),
      (first :: others).dropWhile (!isBlank ·), ?_, gapped, ?_, ?_, ?_⟩
    · rw [List.append_assoc, List.takeWhile_append_dropWhile, ← body, split]
    · simp [clean]
    · intro character member
      simpa using List.mem_takeWhile_imp member
    · rw [endsWord_iff]
      intro character member
      have head := List.head?_dropWhile_not (!isBlank ·) (first :: others)
      rw [Option.mem_def.mp member] at head
      simpa using head

theorem Writes.begins_blank (rest : Writes entries line) (stop : Text.endsWord line = true)
    {next : Text × Key} (member : next ∈ entries.head?) : line.head?.any isBlank = true := by
  cases line with
  | nil =>
    rw [rest.eq_nil rfl] at member
    cases member
  | cons second tail => simpa [Text.endsWord] using stop

/-- A word of names of one character writes their keys. -/
theorem Writes.spelled {word : Text} {keys : List Key} (rest : Writes entries line)
    (stop : Text.endsWord line = true) (read : spelled? word = some keys) :
    ∃ written, Writes (written ++ entries) (word ++ line) ∧ written.map Prod.snd = keys ∧
      (∀ next ∈ written.head?, next.1.length = 1) ∧ (written = [] → word = []) := by
  induction word generalizing keys with
  | nil =>
    cases read
    exact ⟨[], rest, rfl, by simp, by simp⟩
  | cons character word ih =>
    rw [spelled?] at read
    split at read
    next key others named later =>
      cases read
      obtain ⟨written, writes, same, single, typed⟩ := ih later
      refine ⟨([character], key) :: written, ?_, ?_, ?_, ?_⟩
      · apply Writes.key (show Text.allBlank [] = true from rfl) (ofName?_eq_some_iff.mp named) writes
        intro next member
        cases written with
        | nil =>
          rw [typed rfl]
          exact .inl (rest.begins_blank stop member)
        | cons entry written =>
          right
          exact ⟨rfl, single next (by simpa using member)⟩
      · simp [same]
      · simp
      · simp
    · cases read

theorem exists_writes_of_ofWord {word : Text} {keys : List Key} (rest : Writes entries line)
    (stop : Text.endsWord line = true) (read : ofWord word = .ok keys) :
    ∃ written, Writes (written ++ entries) (word ++ line) ∧ written.map Prod.snd = keys := by
  unfold ofWord at read
  split at read
  next key named =>
    cases read
    refine ⟨[(word, key)], ?_, rfl⟩
    apply Writes.key (show Text.allBlank [] = true from rfl) (ofName?_eq_some_iff.mp named) rest
    intro next member
    exact .inl (rest.begins_blank stop member)
  · split at read
    next spelled =>
      cases read
      obtain ⟨written, writes, same, -⟩ := rest.spelled stop spelled
      exact ⟨written, writes, same⟩
    · cases read

theorem Writes.gap {gap : Text} (blank : gap.allBlank = true) (h : Writes entries line) :
    Writes entries (gap ++ line) := by
  have both {more : Text} (blank' : more.allBlank = true) : (gap ++ more).allBlank = true := by
    rw [Text.allBlank, List.all_append, Bool.and_eq_true]
    exact ⟨blank, blank'⟩
  cases h with
  | nothing blank' => exact .nothing (both blank')
  | key blank' named rest parted =>
    rw [List.append_assoc, ← List.append_assoc gap, ← List.append_assoc]
    exact .key (both blank') named rest parted

/-- A line that is read as keys writes them. -/
theorem exists_writes_of_ofLine {line : Text} {keys : List Key} (read : ofLine line = .ok keys) :
    ∃ entries, Writes entries line ∧ entries.map Prod.snd = keys := by
  induction length : line.length using Nat.strongRecOn generalizing line keys with
  | ind size ih =>
    rcases allBlank_or_exists_word line with blank | ⟨gap, word, rest, rfl, blank, typed, clean, stop⟩
    · rw [ofLine, (Text.words_eq_nil_iff line).mpr blank] at read
      cases read
      exact ⟨[], .nothing blank, rfl⟩
    · rw [ofLine, List.append_assoc, words_gap blank, Text.words_append typed clean stop,
        ofWords] at read
      cases first : ofWord word with
      | error error => simp [first] at read
      | ok keys' =>
        rw [first] at read
        obtain ⟨others, later, rfl⟩ := Evaluation.map_ok read
        have shorter : rest.length < size := by
          have := List.length_pos_iff.mpr typed
          simp only [List.length_append] at length
          omega
        obtain ⟨entries, writes, same⟩ := ih _ shorter later rfl
        obtain ⟨written, whole, same'⟩ := exists_writes_of_ofWord writes stop first
        refine ⟨written ++ entries, ?_, ?_⟩
        · rw [List.append_assoc]
          exact whole.gap blank
        · simp [same, same']

/-- A line is accepted exactly if it writes keys by their names, and is read as those keys. It is
refused exactly if it has a word that is unknown, with the first such word. -/
theorem ofLine_language (line : Text) :
    (∀ keys, ofLine line = .ok keys ↔
        ∃ entries, Writes entries line ∧ entries.map Prod.snd = keys) ∧
      ∀ error, ofLine line = .error error ↔
        ∃ before word after, line.words = before ++ word :: after ∧
          (∀ other ∈ before, ¬ Unknown other) ∧ Unknown word ∧ error = ⟨word⟩ := by
  constructor
  · intro keys
    constructor
    · exact exists_writes_of_ofLine
    · intro written
      obtain ⟨entries, writes, rfl⟩ := written
      exact writes.ofLine.1
  · intro error
    constructor
    · intro refused
      cases found : line.words.find? isUnknown with
      | none =>
        have known : ∀ word ∈ line.words, isUnknown word = false := by simpa using found
        obtain ⟨keys, read⟩ := exists_ofWords_eq_ok known
        rw [ofLine, read] at refused
        cases refused
      | some word =>
        rw [ofLine, ofWords_eq_error found] at refused
        cases refused
        obtain ⟨unknown, before, after, split, known⟩ := List.find?_eq_some_iff_append.mp found
        refine ⟨before, word, after, split, ?_, isUnknown_iff.mp unknown, rfl⟩
        intro other member unknown'
        have quiet := known other member
        rw [isUnknown_iff.mpr unknown'] at quiet
        cases quiet
    · intro refused
      obtain ⟨before, word, after, split, known, unknown, rfl⟩ := refused
      apply ofWords_eq_error
      rw [List.find?_eq_some_iff_append]
      refine ⟨isUnknown_iff.mpr unknown, before, after, split, ?_⟩
      intro other member
      rw [Bool.not_eq_true', Bool.eq_false_iff]
      intro unknown'
      exact known other member (isUnknown_iff.mp unknown')

end PocketCalc.Key
