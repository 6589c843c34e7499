import PocketCalc.Proofs.Mark
import PocketCalc.Proofs.OperandEdit

/-!
# A calculator over tokens

The token calculator commits tokens where the calculator commits text. It reads an operand on its
own when it commits it, so that nothing typed before or after can change how it is read. The two
show the same after every run of keys.
-/
namespace PocketCalc

namespace Token

/-- The token of an operator key. -/
def ofOperatorKey? (character : Char) : Option Token :=
  if character ∈ operators then ofMark? character else none

/-- The token of a parenthesis key. -/
def ofParenthesisKey? (character : Char) : Option Token :=
  if character = '(' ∨ character = ')' then ofMark? character else none

end Token

/-- What the display shows for the outcome of an evaluation. -/
def shownOutcome : Except ExpressionError Float → Text
  | .ok value => displayText value
  | .error _ => Calculator.failure

theorem Calculator.resultText_eq (text : Text) :
    resultText text = shownOutcome (PocketCalc.evaluate text) := by
  unfold resultText
  cases PocketCalc.evaluate text <;> rfl

/-- A calculator whose committed prefix is the tokens of what was typed, or a mark that some of it
is no token. -/
structure TokenCalculator where
  committed : Option (List Token)
  current : Text
  angleMode : AngleMode
  inverse : Bool

namespace TokenCalculator

open Calculator (untouched)

def start (angleMode : AngleMode) (inverse : Bool) : TokenCalculator :=
  ⟨some [], untouched, angleMode, inverse⟩

def endsIn (calculator : TokenCalculator) (kind : Token → Bool) : Bool :=
  calculator.committed.any fun tokens => tokens.getLast?.any kind

def operand (calculator : TokenCalculator) : Text :=
  if calculator.current = untouched ∧ calculator.endsIn Token.isClosing then []
  else calculator.current

/-- The committed tokens and those of the operand, which is read on its own. -/
def line (calculator : TokenCalculator) : Option (List Token) :=
  calculator.committed.bind fun tokens =>
    (tokenize calculator.operand).toOption.map (tokens ++ ·)

def recover (calculator : TokenCalculator) : TokenCalculator :=
  if calculator.current = Calculator.failure then { calculator with current := untouched }
  else calculator

def commit (calculator : TokenCalculator) : TokenCalculator :=
  { calculator with committed := calculator.line, current := untouched }

def push (calculator : TokenCalculator) (token : Token) : TokenCalculator :=
  { calculator with committed := calculator.committed.map (· ++ [token]) }

def replace (calculator : TokenCalculator) (token : Token) : TokenCalculator :=
  { calculator with committed := calculator.committed.map (·.dropLast ++ [token]) }

def insertParenthesis (calculator : TokenCalculator) (token : Token) : TokenCalculator :=
  if calculator.current = untouched then
    if calculator.committed = some [] then
      { calculator with committed := some [token], current := [] }
    else calculator.push token
  else calculator.commit.push token

def insertOperator (calculator : TokenCalculator) (token : Token) : TokenCalculator :=
  if calculator.current = [] ∧ calculator.committed = some [] then calculator
  else if calculator.current ≠ untouched ∨ calculator.endsIn Token.isClosing then
    calculator.commit.push token
  else if calculator.endsIn Token.isOperation then calculator.replace token
  else calculator.push token

def typeParenthesis (calculator : TokenCalculator) (character : Char) : TokenCalculator :=
  match Token.ofParenthesisKey? character with
  | some token => calculator.recover.insertParenthesis token
  | none => calculator

def typeOperator (calculator : TokenCalculator) (character : Char) : TokenCalculator :=
  match Token.ofOperatorKey? character with
  | some token => calculator.recover.insertOperator token
  | none => calculator

def clear (calculator : TokenCalculator) : TokenCalculator :=
  { calculator with committed := some [], current := untouched }

def resultText : Option (List Token) → Text
  | some tokens => shownOutcome (Evaluation.evaluateTokens tokens)
  | none => Calculator.failure

def evaluate (calculator : TokenCalculator) : TokenCalculator :=
  { calculator with committed := some [], current := resultText calculator.line }

/-- What is shown besides the committed prefix, as a calculator that has nothing pending. -/
def shown (calculator : TokenCalculator) : Calculator :=
  ⟨[], calculator.current, calculator.angleMode, calculator.inverse⟩

def edit (calculator : TokenCalculator) (key : Key) : TokenCalculator :=
  let edited := calculator.shown.press key
  ⟨calculator.committed, edited.current, edited.angleMode, edited.inverse⟩

def press (calculator : TokenCalculator) (key : Key) : TokenCalculator :=
  match key with
  | .operator character => calculator.typeOperator character
  | .parenthesis character => calculator.typeParenthesis character
  | .clear => calculator.clear
  | .evaluate => calculator.evaluate
  | .digit _ | .constant _ | .function _ | .delete | .toggleAngleMode | .toggleInverse =>
    calculator.edit key

def pressAll (calculator : TokenCalculator) (keys : List Key) : TokenCalculator :=
  keys.foldl press calculator

end TokenCalculator

/-- A committed text is empty or ends in a mark, and no operator in it follows a multiplication. -/
inductive Committed : Text → Prop
  | nothing : Committed []
  | mark {front : Text} {character : Char} {token : Token}
      (known : Token.ofMark? character = some token)
      (apart : token.isOperation = true → lastMark? front ≠ some .times) :
      Committed (front ++ [character])

/-- A mark typed at the end of a text adds its token. -/
theorem tokenize_mark_end {front : Text} {mark : Char} {token : Token}
    (known : Token.ofMark? mark = some token)
    (before : token.isOperation = true → lastMark? front ≠ some .times) :
    tokenize (front ++ [mark]) = joinTokens (tokenize front) (.ok [token]) := by
  have apart : token = .times → lastMark? front ≠ some .times := by
    rintro rfl
    exact before rfl
  rw [tokenize_mark known apart (by simp [firstMark?]), tokenize_nil]
  rfl

/-- The operand is read on its own: nothing of it joins what is committed. -/
theorem Committed.tokenize_append {pending : Text} (h : Committed pending) {operand : Text}
    (shown : Shown operand) :
    tokenize (pending ++ operand) = joinTokens (tokenize pending) (tokenize operand) := by
  cases h with
  | nothing => rw [tokenize_nil, joinTokens_ok_nil, List.nil_append]
  | @mark front character token known apart =>
    have before : token = .times → lastMark? front ≠ some .times := by
      rintro rfl
      exact apart rfl
    rw [List.append_assoc, List.singleton_append,
      tokenize_mark known before fun _ => shown.firstMark?_ne_times,
      tokenize_mark_end known apart, joinTokens_assoc]
    cases tokenize operand <;> rfl

theorem Committed.tokenize_concat {front : Text} {character : Char}
    (h : Committed (front ++ [character])) :
    ∃ token, Token.ofMark? character = some token ∧
      tokenize (front ++ [character]) = joinTokens (tokenize front) (.ok [token]) := by
  generalize whole : front ++ [character] = text at *
  cases h with
  | nothing => simp at whole
  | @mark front' character' token known apart =>
    obtain ⟨same, single⟩ := List.append_inj' whole rfl
    cases same
    cases single
    exact ⟨token, known, tokenize_mark_end known apart⟩

/-- What is read of a committed text is what is read before its last mark, and that mark. -/
theorem Committed.of_tokenize_concat {front : Text} {character : Char} {others : List Token}
    {last : Token} (h : Committed (front ++ [character]))
    (read : tokenize (front ++ [character]) = .ok (others ++ [last])) :
    tokenize front = .ok others ∧ Token.ofMark? character = some last := by
  obtain ⟨token, known, whole⟩ := h.tokenize_concat
  rw [whole] at read
  cases first : tokenize front with
  | error error =>
    rw [first] at read
    cases read
  | ok tokens =>
    rw [first] at read
    obtain ⟨same, single⟩ := List.append_inj' (Except.ok.inj read) rfl
    cases same
    cases single
    exact ⟨rfl, known⟩

theorem Committed.getLast?_tokens {pending : Text} (h : Committed pending) {tokens : List Token}
    (read : tokenize pending = .ok tokens) : tokens.getLast? = lastMark? pending := by
  cases h with
  | nothing =>
    rw [tokenize_nil] at read
    cases read
    rfl
  | @mark front character token known apart =>
    rw [tokenize_mark_end known apart] at read
    cases first : tokenize front with
    | error error =>
      rw [first] at read
      cases read
    | ok tokens =>
      rw [first] at read
      cases read
      simp [lastMark?, known]

theorem Committed.tokens_eq_nil_iff {pending : Text} (h : Committed pending) :
    (tokenize pending).toOption = some [] ↔ pending = [] := by
  constructor
  · intro read
    cases h with
    | nothing => rfl
    | @mark front character token known apart =>
      rw [tokenize_mark_end known apart, joinTokens_toOption] at read
      cases first : tokenize front with
      | error error =>
        rw [first] at read
        cases read
      | ok tokens =>
        rw [first] at read
        exact absurd (Option.some.inj read)
          (List.append_ne_nil_of_right_ne_nil _ (List.cons_ne_nil _ _))
  · rintro rfl
    rw [tokenize_nil]
    rfl

/-- An operator at the end may be taken away without leaving a multiplication. -/
theorem Committed.exists_of_endsInOperator {pending : Text} (h : Committed pending)
    (ended : Calculator.endsInOperator pending = true) :
    ∃ front character token, pending = front ++ [character] ∧
      Token.ofMark? character = some token ∧ lastMark? front ≠ some .times := by
  cases h with
  | nothing => cases ended
  | @mark front character token known apart =>
    have operation : token.isOperation = true := by
      rw [endsInOperator_eq] at ended
      simpa [lastMark?, known] using ended
    exact ⟨front, character, token, rfl, known, apart operation⟩

/-- The calculator and the token calculator between two keys. -/
structure Refines (calculator : Calculator) (reference : TokenCalculator) : Prop where
  current : reference.current = calculator.current
  angleMode : reference.angleMode = calculator.angleMode
  inverse : reference.inverse = calculator.inverse
  committed : reference.committed = (tokenize calculator.pending).toOption
  pending : Committed calculator.pending
  shown : Shown calculator.current
  unedited : calculator.current = [] → Calculator.endsInOperator calculator.pending = false

namespace Refines

open Calculator (untouched endsInOperator)

variable {calculator : Calculator} {reference : TokenCalculator}

theorem endsIn (h : Refines calculator reference) {tokens : List Token}
    (read : tokenize calculator.pending = .ok tokens) (kind : Token → Bool) :
    reference.endsIn kind = (lastMark? calculator.pending).any kind := by
  rw [TokenCalculator.endsIn, h.committed, read, ← h.pending.getLast?_tokens read]
  rfl

theorem endsIn_closing_iff (h : Refines calculator reference) {tokens : List Token}
    (read : tokenize calculator.pending = .ok tokens) :
    reference.endsIn Token.isClosing = true ↔ calculator.pending.getLast? = some ')' := by
  rw [h.endsIn read, ← lastMark?_eq_closing_iff]
  cases lastMark? calculator.pending with
  | none => simp
  | some token => cases token <;> simp [Token.isClosing]

theorem operand_eq (h : Refines calculator reference) {tokens : List Token}
    (read : tokenize calculator.pending = .ok tokens) :
    reference.operand = calculator.operand := by
  unfold TokenCalculator.operand Calculator.operand
  simp only [h.current, h.endsIn_closing_iff read]

theorem shown_operand (h : Refines calculator reference) : Shown calculator.operand := by
  unfold Calculator.operand
  split
  · decide
  · exact h.shown

/-- What the calculator would evaluate is read as what the token calculator would. -/
theorem line_eq (h : Refines calculator reference) :
    reference.line = (tokenize (calculator.pending ++ calculator.operand)).toOption := by
  rw [h.pending.tokenize_append h.shown_operand, joinTokens_toOption, TokenCalculator.line,
    h.committed]
  cases read : tokenize calculator.pending with
  | error error => rfl
  | ok tokens => rw [h.operand_eq read]

theorem lastMark?_line (h : Refines calculator reference) :
    lastMark? (calculator.pending ++ calculator.operand) ≠ some .times := by
  have ended : endsInOperator calculator.pending = false →
      lastMark? (calculator.pending ++ []) ≠ some .times := by
    intro none times
    rw [List.append_nil] at times
    rw [endsInOperator_eq, times] at none
    cases none
  unfold Calculator.operand
  split
  next closed =>
    refine ended ?_
    rw [endsInOperator_eq, (lastMark?_eq_closing_iff _).mpr closed.2]
    rfl
  · by_cases empty : calculator.current = []
    · rw [empty]
      exact ended (h.unedited empty)
    · exact h.shown.lastMark?_append_ne_times empty _

theorem pending_eq_nil_iff (h : Refines calculator reference) :
    reference.committed = some [] ↔ calculator.pending = [] := by
  rw [h.committed, h.pending.tokens_eq_nil_iff]

/-- A mark that is pushed alone keeps the relation unless it could complete a `**`. -/
theorem push (h : Refines calculator reference) {character : Char} {token : Token}
    (known : Token.ofMark? character = some token)
    (apart : token.isOperation = true → lastMark? calculator.pending ≠ some .times)
    (typed : calculator.current ≠ []) :
    Refines (calculator.push character) (reference.push token) where
  current := h.current
  angleMode := h.angleMode
  inverse := h.inverse
  committed := by
    simp only [TokenCalculator.push, Calculator.push, tokenize_mark_end known apart,
      joinTokens_toOption, h.committed]
    cases (tokenize calculator.pending).toOption <;> rfl
  pending := .mark known apart
  shown := h.shown
  unedited := fun empty => absurd empty typed

theorem commit_push (h : Refines calculator reference) {character : Char} {token : Token}
    (known : Token.ofMark? character = some token) :
    Refines (calculator.commit.push character) (reference.commit.push token) where
  current := rfl
  angleMode := h.angleMode
  inverse := h.inverse
  committed := by
    simp only [TokenCalculator.push, TokenCalculator.commit, Calculator.push, Calculator.commit,
      tokenize_mark_end known fun _ => h.lastMark?_line, joinTokens_toOption, h.line_eq]
    cases (tokenize (calculator.pending ++ calculator.operand)).toOption <;> rfl
  pending := .mark known fun _ => h.lastMark?_line
  shown := Calculator.shown_untouched
  unedited := fun empty => absurd empty Calculator.untouched_ne_nil

/-- The operator that takes the place of another stands behind what that one stood behind. -/
theorem replace (h : Refines calculator reference) {character : Char} {token : Token}
    (known : Token.ofMark? character = some token)
    (ended : endsInOperator calculator.pending = true) (typed : calculator.current ≠ []) :
    Refines { calculator with pending := calculator.pending.dropLast ++ [character] }
      (reference.replace token) := by
  obtain ⟨front, former, old, split, knownOld, free⟩ := h.pending.exists_of_endsInOperator ended
  have shorter : calculator.pending.dropLast = front := by
    rw [split, List.dropLast_concat]
  rw [shorter]
  refine ⟨h.current, h.angleMode, h.inverse, ?_, .mark known fun _ => free, h.shown,
    fun empty => absurd empty typed⟩
  simp only [TokenCalculator.replace, h.committed, split, tokenize_mark_end known fun _ => free,
    tokenize_mark_end knownOld fun _ => free, joinTokens_toOption]
  cases (tokenize front).toOption with
  | none => rfl
  | some tokens => simp [Except.toOption]

theorem recover (h : Refines calculator reference) :
    Refines calculator.recover reference.recover := by
  unfold Calculator.recover TokenCalculator.recover
  rw [h.current]
  split
  · exact ⟨rfl, h.angleMode, h.inverse, h.committed, h.pending, Calculator.shown_untouched,
      fun empty => absurd empty Calculator.untouched_ne_nil⟩
  · exact h

theorem insertParenthesis (h : Refines calculator reference) {character : Char} {token : Token}
    (known : Token.ofMark? character = some token) (parenthesis : token.isOperation = false) :
    Refines (calculator.insertParenthesis character) (reference.insertParenthesis token) := by
  have apart (front : Text) : token.isOperation = true → lastMark? front ≠ some .times := by
    rw [parenthesis]
    rintro ⟨⟩
  unfold Calculator.insertParenthesis TokenCalculator.insertParenthesis
  simp only [h.current, h.pending_eq_nil_iff]
  split
  next untyped =>
    split
    · have alone : Committed [character] := .mark known (apart [])
      refine ⟨rfl, h.angleMode, h.inverse, ?_, alone, List.forall_mem_nil _, ?_⟩
      · have read := tokenize_mark_end known (apart [])
        rw [List.nil_append, tokenize_nil] at read
        exact congrArg Except.toOption read.symm
      · intro _
        simp [endsInOperator_eq, lastMark?, known, parenthesis]
    · refine h.push known (apart _) ?_
      rw [untyped]
      exact Calculator.untouched_ne_nil
  · exact h.commit_push known

/-- What the token calculator does with an operator, by the tests of the calculator. Where the
prefix has failed the tests no longer agree, but all that they choose between is the same. -/
theorem insertOperator_eq (h : Refines calculator reference) (token : Token) :
    reference.insertOperator token =
      if calculator.current = [] ∧ calculator.pending = [] then reference
      else if calculator.current ≠ untouched ∨ calculator.pending.getLast? = some ')' then
        reference.commit.push token
      else if endsInOperator calculator.pending then reference.replace token
      else reference.push token := by
  unfold TokenCalculator.insertOperator
  simp only [h.pending_eq_nil_iff, h.current]
  cases read : tokenize calculator.pending with
  | error error =>
    have failed : reference.committed = none := by
      rw [h.committed, read]
      rfl
    have ends (kind : Token → Bool) : reference.endsIn kind = false := by
      simp [TokenCalculator.endsIn, failed]
    -- Nothing can be pushed onto a failed prefix or taken off it.
    have replaced : reference.replace token = reference.push token := by
      simp [TokenCalculator.replace, TokenCalculator.push, failed]
    have committed (untyped : calculator.current = untouched) :
        reference.commit.push token = reference.push token := by
      simp [TokenCalculator.push, TokenCalculator.commit, TokenCalculator.line, failed,
        h.current, untyped]
    by_cases untyped : calculator.current = untouched
    · simp [ends, replaced, committed untyped, untyped]
    · simp [untyped]
  | ok tokens =>
    simp only [h.endsIn_closing_iff read]
    simp only [h.endsIn read, endsInOperator_eq]

theorem insertOperator (h : Refines calculator reference) {character : Char} {token : Token}
    (known : Token.ofMark? character = some token) :
    Refines (calculator.insertOperator character) (reference.insertOperator token) := by
  rw [h.insertOperator_eq, Calculator.insertOperator]
  split
  · exact h
  split
  · exact h.commit_push known
  next idle =>
    obtain ⟨untyped, _⟩ := not_or.mp idle
    have typed : calculator.current ≠ [] := by
      rw [Decidable.not_not.mp untyped]
      exact Calculator.untouched_ne_nil
    split
    next ended => exact h.replace known ended typed
    next free =>
      -- An operator goes alone only where no operator stands, so that no `**` arises.
      refine h.push known (fun _ times => free ?_) typed
      rw [endsInOperator_eq, times]
      rfl

theorem evaluate (h : Refines calculator reference) :
    Refines calculator.evaluate reference.evaluate := by
  have same : TokenCalculator.resultText reference.line =
      Calculator.resultText (calculator.pending ++ calculator.operand) := by
    rw [h.line_eq, Calculator.resultText_eq, PocketCalc.evaluate]
    cases tokenize (calculator.pending ++ calculator.operand) <;> rfl
  have result (text : Text) : Shown (Calculator.resultText text) ∧
      Calculator.resultText text ≠ [] := by
    unfold Calculator.resultText
    split
    · exact ⟨shown_displayText _, displayText_ne_nil _⟩
    · exact ⟨Calculator.shown_failure, Calculator.failure_ne_nil⟩
  refine ⟨same, h.angleMode, h.inverse, ?_, .nothing, (result _).1,
    fun empty => absurd empty (result _).2⟩
  simp [TokenCalculator.evaluate, Calculator.evaluate, tokenize_nil, Except.toOption]

theorem edit (h : Refines calculator reference) {key : Key} (edits : key.editsOperand = true) :
    Refines (calculator.press key) (reference.edit key) := by
  have apart := Calculator.press_with_pending edits calculator []
  have pending := Calculator.pending_press edits calculator
  have edited := Calculator.edited_press edits calculator
  have shown : reference.shown = { calculator with pending := [] } := by
    rw [TokenCalculator.shown, h.current, h.angleMode, h.inverse]
  have alone : reference.shown.press key = { calculator.press key with pending := [] } := by
    rw [shown, apart]
  refine ⟨?_, ?_, ?_, ?_, ?_, edited.shown h.shown, ?_⟩
  · rw [TokenCalculator.edit, alone]
  · rw [TokenCalculator.edit, alone]
  · rw [TokenCalculator.edit, alone]
  · rw [pending]
    exact h.committed
  · rw [pending]
    exact h.pending
  · intro empty
    rw [pending]
    apply h.unedited
    apply Decidable.not_not.mp
    intro typed
    exact edited.ne_nil typed empty

theorem typeOperator (h : Refines calculator reference) (character : Char) :
    Refines (calculator.typeOperator character) (reference.typeOperator character) := by
  unfold Calculator.typeOperator TokenCalculator.typeOperator Token.ofOperatorKey?
  by_cases operator : character ∈ operators
  · rw [if_pos operator, if_pos operator]
    obtain ⟨token, known, -⟩ := exists_ofMark?_of_mem operator
    rw [known]
    exact h.recover.insertOperator known
  · rw [if_neg operator, if_neg operator]
    exact h

theorem typeParenthesis (h : Refines calculator reference) (character : Char) :
    Refines (calculator.typeParenthesis character) (reference.typeParenthesis character) := by
  unfold Calculator.typeParenthesis TokenCalculator.typeParenthesis Token.ofParenthesisKey?
  by_cases parenthesis : character = '(' ∨ character = ')'
  · rw [if_pos parenthesis, if_pos parenthesis]
    rcases parenthesis with rfl | rfl
    · exact h.recover.insertParenthesis rfl rfl
    · exact h.recover.insertParenthesis rfl rfl
  · rw [if_neg parenthesis, if_neg parenthesis]
    exact h

theorem clear (h : Refines calculator reference) :
    Refines calculator.clear reference.clear where
  current := rfl
  angleMode := h.angleMode
  inverse := h.inverse
  committed := by
    rw [Calculator.clear, tokenize_nil]
    rfl
  pending := .nothing
  shown := Calculator.shown_untouched
  unedited := fun empty => absurd empty Calculator.untouched_ne_nil

/-- One key keeps the relation. -/
theorem press (h : Refines calculator reference) (key : Key) :
    Refines (calculator.press key) (reference.press key) := by
  cases key with
  | operator character => exact h.typeOperator character
  | parenthesis character => exact h.typeParenthesis character
  | clear => exact h.clear
  | evaluate => exact h.evaluate
  | digit | constant | function | delete | toggleAngleMode | toggleInverse => exact h.edit rfl

theorem pressAll (h : Refines calculator reference) (keys : List Key) :
    Refines (calculator.pressAll keys) (reference.pressAll keys) := by
  induction keys generalizing calculator reference with
  | nil => exact h
  | cons key keys ih => exact ih (h.press key)

theorem start (angleMode : AngleMode) (inverse : Bool) :
    Refines (.start angleMode inverse) (.start angleMode inverse) where
  current := rfl
  angleMode := rfl
  inverse := rfl
  committed := by
    rw [Calculator.start, tokenize_nil]
    rfl
  pending := .nothing
  shown := Calculator.shown_untouched
  unedited := fun empty => absurd empty Calculator.untouched_ne_nil

end Refines

/-- After any keys the calculator shows what the token calculator shows, and the text it would
evaluate is read as the tokens that were typed one by one: no two keys run into one token. -/
theorem Calculator.pressAll_refines_tokens (angleMode : AngleMode) (inverse : Bool)
    (keys : List Key) :
    let calculator := (Calculator.start angleMode inverse).pressAll keys
    let reference := (TokenCalculator.start angleMode inverse).pressAll keys
    calculator.current = reference.current ∧ calculator.angleMode = reference.angleMode ∧
      calculator.inverse = reference.inverse ∧
      (tokenize calculator.pending).toOption = reference.committed ∧
      (tokenize (calculator.pending ++ calculator.operand)).toOption = reference.line := by
  have h := (Refines.start angleMode inverse).pressAll keys
  exact ⟨h.current.symm, h.angleMode.symm, h.inverse.symm, h.committed.symm, h.line_eq.symm⟩

end PocketCalc
