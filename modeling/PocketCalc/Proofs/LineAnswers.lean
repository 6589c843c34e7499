import PocketCalc.Proofs.Decoding

/-!
# What a session writes

A line is answered as a whole: its keys are pressed if each of its words is known, and otherwise
none of them is. What is written for it depends on the lines before it only through the keys that
they pressed.
-/
namespace PocketCalc

namespace Key

/-- Whether a word is no name and does not consist of names. -/
def isUnknown (word : Text) : Bool :=
  (ofName? word).isNone && word.any fun character => (ofName? [character]).isNone

theorem spelled?_eq_none_iff (word : Text) :
    spelled? word = none ↔ (word.any fun character => (ofName? [character]).isNone) = true := by
  induction word with
  | nil => simp [spelled?]
  | cons character rest ih =>
    rw [List.any_cons, Bool.or_eq_true, ← ih, spelled?]
    cases ofName? [character] with
    | none => simp
    | some key => cases spelled? rest <;> simp

theorem ofWord_eq_error {word : Text} (unknown : isUnknown word = true) :
    ofWord word = .error ⟨word⟩ := by
  obtain ⟨unnamed, unspelled⟩ := Bool.and_eq_true_iff.mp unknown
  rw [ofWord, Option.isNone_iff_eq_none.mp unnamed, (spelled?_eq_none_iff word).mpr unspelled]

theorem exists_ofWord_eq_ok {word : Text} (known : isUnknown word = false) :
    ∃ keys, ofWord word = .ok keys := by
  unfold ofWord
  cases named : ofName? word with
  | some key => exact ⟨[key], rfl⟩
  | none =>
    cases spelled : spelled? word with
    | some keys => exact ⟨keys, rfl⟩
    | none =>
      have unspelled := (spelled?_eq_none_iff word).mp spelled
      rw [isUnknown, named, unspelled] at known
      cases known

theorem exists_ofWords_eq_ok {words : List Text}
    (known : ∀ word ∈ words, isUnknown word = false) : ∃ keys, ofWords words = .ok keys := by
  induction words with
  | nil => exact ⟨[], rfl⟩
  | cons word rest ih =>
    rw [List.forall_mem_cons] at known
    obtain ⟨keys, first⟩ := exists_ofWord_eq_ok known.1
    obtain ⟨others, later⟩ := ih known.2
    refine ⟨keys ++ others, ?_⟩
    rw [ofWords, first, later]
    rfl

/-- Words are refused with the first of them that is unknown. -/
theorem ofWords_eq_error {words : List Text} {word : Text}
    (found : words.find? isUnknown = some word) : ofWords words = .error ⟨word⟩ := by
  induction words with
  | nil => cases found
  | cons first rest ih =>
    rcases List.find?_cons_eq_some.mp found with ⟨unknown, rfl⟩ | ⟨known, later⟩
    · rw [ofWords, ofWord_eq_error unknown]
    · obtain ⟨keys, read⟩ := exists_ofWord_eq_ok (by simpa using known)
      rw [ofWords, read, ih later]
      rfl

end Key

namespace Session

/-- The keys of the lines that are accepted. -/
def acceptedKeys (texts : List Text) : List Key :=
  texts.flatMap fun text => (Key.ofLine text).toOption.getD []

/-- What is written for a line that stands behind others. -/
def writing (calculator : Calculator) (before : List Text) (text : Text) : Text :=
  if text.allBlank then []
  else match text.words.find? Key.isUnknown with
    | some word => "scicalc: unknown key: ".toList ++ word ++ "\n".toList
    | none => (calculator.pressAll (acceptedKeys (before ++ [text]))).render

/-- What is written for each of the lines. -/
def writings (calculator : Calculator) (texts : List Text) : List Text :=
  texts.mapIdx fun index text => writing calculator (texts.take index) text

theorem acceptedKeys_cons (text : Text) (texts : List Text) :
    acceptedKeys (text :: texts) = acceptedKeys [text] ++ acceptedKeys texts := by
  simp [acceptedKeys]

/-- The lines before matter only through the keys that they pressed. -/
theorem writing_cons (calculator : Calculator) (first : Text) (before : List Text) (text : Text) :
    writing calculator (first :: before) text =
      writing (calculator.pressAll (acceptedKeys [first])) before text := by
  unfold writing
  rw [List.cons_append, acceptedKeys_cons, Calculator.pressAll_append]

theorem writings_cons (calculator : Calculator) (text : Text) (texts : List Text) :
    writings calculator (text :: texts) =
      writing calculator [] text ::
        writings (calculator.pressAll (acceptedKeys [text])) texts := by
  simp [writings, List.mapIdx_cons, writing_cons]

/-- A line that is blank or refused. -/
def Idle (text : Text) : Prop :=
  text.allBlank = true ∨ ∃ error, Key.ofLine text = .error error

theorem Idle.acceptedKeys {text : Text} (h : Idle text) : acceptedKeys [text] = [] := by
  rcases h with blank | ⟨error, refused⟩
  · have empty : Key.ofLine text = .ok [] := by
      rw [Key.ofLine, (Text.words_eq_nil_iff text).mpr blank]
      rfl
    simp [Session.acceptedKeys, empty, Except.toOption]
  · simp [Session.acceptedKeys, refused, Except.toOption]

theorem report_message (word : Text) :
    report (UnknownKey.message ⟨word⟩) =
      "scicalc: unknown key: ".toList ++ word ++ "\n".toList := by
  have joined : "scicalc: unknown key: ".toList =
      "scicalc: ".toList ++ "unknown key: ".toList := rfl
  unfold report UnknownKey.message
  dsimp only
  rw [joined, List.append_assoc, List.append_assoc, List.append_assoc, List.append_assoc]

/-- One line presses its own keys or none, and is answered as the writing says. -/
theorem answer_eq (calculator : Calculator) (text : Text) :
    answer calculator text =
      (calculator.pressAll (acceptedKeys [text]), writing calculator [] text) := by
  unfold answer writing
  by_cases blank : text.allBlank = true
  · have idle : Idle text := .inl blank
    rw [if_pos blank, if_pos blank, idle.acceptedKeys, Calculator.pressAll_nil]
  · rw [if_neg blank, if_neg blank]
    cases found : text.words.find? Key.isUnknown with
    | some word =>
      have refused : Key.ofLine text = .error ⟨word⟩ := Key.ofWords_eq_error found
      have idle : Idle text := .inr ⟨_, refused⟩
      simp only [refused, idle.acceptedKeys, Calculator.pressAll_nil, report_message]
    | none =>
      have known : ∀ word ∈ text.words, Key.isUnknown word = false := by
        simpa using found
      obtain ⟨keys, read⟩ := Key.exists_ofWords_eq_ok known
      have accepted : Key.ofLine text = .ok keys := read
      simp [accepted, acceptedKeys, Except.toOption]

/-- A line that is text is answered, and one that is not ends the session. -/
theorem runLines_cons (calculator : Calculator) (line : List UInt8) (rest : List (List UInt8)) :
    runLines calculator (line :: rest) =
      match decode? line with
      | some text =>
        let ending := runLines (calculator.pressAll (acceptedKeys [text])) rest
        { ending with output := writing calculator [] text ++ ending.output }
      | none => ⟨calculator, [], some .notText⟩ := by
  rw [runLines]
  cases decode? line with
  | none => rfl
  | some text => simp only [answer_eq]

theorem runLines_of_decoded (calculator : Calculator) {lines : List (List UInt8)}
    {texts : List Text} (decoded : lines.map decode? = texts.map some) :
    runLines calculator lines =
      ⟨calculator.pressAll (acceptedKeys texts), (writings calculator texts).flatten, none⟩ := by
  induction texts generalizing calculator lines with
  | nil =>
    obtain rfl := List.map_eq_nil_iff.mp decoded
    rfl
  | cons text texts ih =>
    cases lines with
    | nil => cases decoded
    | cons line lines =>
      obtain ⟨first, rest⟩ := List.cons.inj decoded
      rw [runLines_cons, first, writings_cons, acceptedKeys_cons, Calculator.pressAll_append]
      dsimp only
      rw [ih _ rest, List.flatten_cons]

/-- The items with a mark. -/
def select {α : Type} (marks : List Bool) (items : List α) : List α :=
  ((items.zip marks).filter Prod.snd).map Prod.fst

theorem select_cons {α : Type} (mark : Bool) (marks : List Bool) (item : α) (items : List α) :
    select (mark :: marks) (item :: items) =
      if mark then item :: select marks items else select marks items := by
  cases mark <;> simp [select]

/-- Leaving out lines that are blank or refused leaves out what is written for them. -/
theorem select_idle {marks : List Bool} {texts : List Text} (long : marks.length = texts.length)
    (idle : ∀ entry ∈ texts.zip marks, entry.2 = false → Idle entry.1)
    (calculator : Calculator) :
    acceptedKeys (select marks texts) = acceptedKeys texts ∧
      writings calculator (select marks texts) = select marks (writings calculator texts) := by
  induction texts generalizing marks calculator with
  | nil => exact ⟨rfl, rfl⟩
  | cons text texts ih =>
    cases marks with
    | nil => cases long
    | cons mark marks =>
      rw [List.zip_cons_cons, List.forall_mem_cons] at idle
      obtain ⟨keys, written⟩ :=
        ih (Nat.succ.inj long) idle.2 (calculator.pressAll (acceptedKeys [text]))
      rw [writings_cons, select_cons, select_cons, acceptedKeys_cons text]
      cases mark with
      | true =>
        rw [if_pos rfl, if_pos rfl, acceptedKeys_cons, keys, writings_cons, written]
        exact ⟨rfl, rfl⟩
      | false =>
        have none := (idle.1 rfl).acceptedKeys
        rw [none, Calculator.pressAll_nil] at written
        rw [if_neg Bool.false_ne_true, if_neg Bool.false_ne_true, none, Calculator.pressAll_nil]
        exact ⟨keys, written⟩

/-- A session presses the keys of the lines that are accepted, and no others. It writes nothing for
a blank line, the display for an accepted line and the first unknown word for another. A session
without some of the lines that are blank or refused ends in the same state, and what is written for
the lines that it has is the same. -/
theorem run_eq_writings (calculator : Calculator) {input : List UInt8} {texts : List Text}
    (decoded : (lines input).map decode? = texts.map some) :
    run calculator input =
        ⟨calculator.pressAll (acceptedKeys texts), (writings calculator texts).flatten, none⟩ ∧
      ∀ marks : List Bool, marks.length = texts.length →
        (∀ entry ∈ texts.zip marks, entry.2 = false → Idle entry.1) →
        ∀ shorter : List UInt8, (lines shorter).map decode? = (select marks texts).map some →
          run calculator shorter =
            ⟨(run calculator input).calculator,
              (select marks (writings calculator texts)).flatten, none⟩ := by
  have whole : run calculator input = _ := runLines_of_decoded calculator decoded
  refine ⟨whole, ?_⟩
  intro marks long idle shorter decoded'
  obtain ⟨keys, written⟩ := select_idle long idle calculator
  have part : run calculator shorter = _ := runLines_of_decoded calculator decoded'
  rw [part, whole, keys, written]

/-- A product typed in two lines, with a blank line and a refused line between them. -/
def interruptedProduct : List Text :=
  ["12 ×".toList, " ".toList, "5 sinh x".toList, "4".toList]

theorem run_eq_writings_interruptedProduct :
    run (.start .degrees false) (encode "12 ×\n \n5 sinh x\n4\n".toList) =
        ⟨⟨"12×".toList, "4".toList, .degrees, false⟩,
          "12×\n0\nscicalc: unknown key: sinh\n12×\n4\n".toList, none⟩ ∧
      run (.start .degrees false) (encode "12 ×\n4\n".toList) =
        ⟨⟨"12×".toList, "4".toList, .degrees, false⟩, "12×\n0\n12×\n4\n".toList, none⟩ := by
  have read : lines (encode "12 ×\n \n5 sinh x\n4\n".toList) = interruptedProduct.map encode := by
    decide +kernel
  have decoded := map_decode?_encode interruptedProduct
  rw [← read] at decoded
  have read' : lines (encode "12 ×\n4\n".toList) =
      (select [true, false, false, true] interruptedProduct).map encode := by
    decide +kernel
  have decoded' := map_decode?_encode (select [true, false, false, true] interruptedProduct)
  rw [← read'] at decoded'
  have idle : ∀ entry ∈ interruptedProduct.zip [true, false, false, true],
      entry.2 = false → Idle entry.1 := by
    have blank : Idle " ".toList := .inl (by decide)
    have refused : Idle "5 sinh x".toList := .inr ⟨⟨"sinh".toList⟩, rfl⟩
    simpa [interruptedProduct] using And.intro blank refused
  obtain ⟨whole, part⟩ := run_eq_writings (.start .degrees false) decoded
  rw [part _ rfl idle _ decoded', whole]
  constructor <;> decide +kernel

end Session
end PocketCalc
