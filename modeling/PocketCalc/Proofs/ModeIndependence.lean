import PocketCalc.Calculator

/-!
# Modes

The angle mode and the inverse flag are read by the trigonometric functions only and changed by the
two toggles only. So what a run displays depends on the toggles among its keys only through the
modes in which its trigonometric keys are pressed.
-/
namespace PocketCalc

/-- The keys that change a mode. -/
def Key.isToggle : Key → Bool
  | .toggleAngleMode | .toggleInverse => true
  | _ => false

/-- The keys that read the modes. -/
def Key.isTrigonometric : Key → Bool
  | .function (.trig _) => true
  | _ => false

/-- What a key makes of the modes. -/
def Key.turn : Key → AngleMode × Bool → AngleMode × Bool
  | .toggleAngleMode, (angleMode, inverse) => (angleMode.toggled, inverse)
  | .toggleInverse, (angleMode, inverse) => (angleMode, !inverse)
  | _, modes => modes

theorem Key.turn_comm (key other : Key) (modes : AngleMode × Bool) :
    key.turn (other.turn modes) = other.turn (key.turn modes) := by
  cases key <;> cases other <;> rfl

def withoutToggles (keys : List Key) : List Key :=
  keys.filter (!·.isToggle)

/-- Only a trigonometric function looks at the modes. -/
theorem Scientific.apply_modes {function : Scientific}
    (plain : (Key.function function).isTrigonometric = false) (mode mode' : AngleMode)
    (inverse inverse' : Bool) (value : Float) :
    function.apply mode inverse value = function.apply mode' inverse' value := by
  cases function with
  | trig ratio => cases plain
  | ln | log | factorial | percent | squareRoot => rfl

namespace Calculator

def display (calculator : Calculator) : Text × Text :=
  (calculator.pending, calculator.current)

def modes (calculator : Calculator) : AngleMode × Bool :=
  (calculator.angleMode, calculator.inverse)

def withModes (modes : AngleMode × Bool) (calculator : Calculator) : Calculator :=
  { calculator with angleMode := modes.1, inverse := modes.2 }

/-- The presses of a run but for its toggles: the state in which each key is pressed, and the key. -/
def presses (calculator : Calculator) : List Key → List (Calculator × Key)
  | [] => []
  | key :: keys =>
    if key.isToggle then (calculator.press key).presses keys
    else (calculator, key) :: (calculator.press key).presses keys

/-- What is displayed after a press. -/
def displayAfter (press : Calculator × Key) : Text × Text :=
  (press.1.press press.2).display

variable (calculator : Calculator)

theorem eq_withModes {first second : Calculator} (same : first.display = second.display) :
    first = second.withModes first.modes := by
  obtain ⟨pending, current⟩ := Prod.mk.inj same
  rw [withModes, ← pending, ← current]
  rfl

theorem recover_withModes (modes : AngleMode × Bool) :
    (calculator.withModes modes).recover = calculator.recover.withModes modes := by
  rw [recover, recover, apply_ite (withModes modes)]
  rfl

/-- A key that neither reads nor changes the modes works alike in all of them and leaves them. -/
theorem press_withModes {key : Key} (plain : key.isToggle = false)
    (blind : key.isTrigonometric = false) (modes : AngleMode × Bool) :
    (calculator.withModes modes).press key = (calculator.press key).withModes modes := by
  cases key with
  | toggleAngleMode | toggleInverse => cases plain
  | digit character =>
    simp only [press, typeDigit, recover_withModes, insertDigit, apply_ite (withModes modes)]
    rfl
  | operator character =>
    simp only [press, typeOperator, recover_withModes, insertOperator,
      apply_ite (withModes modes)]
    rfl
  | parenthesis character =>
    simp only [press, typeParenthesis, recover_withModes, insertParenthesis,
      apply_ite (withModes modes)]
    rfl
  | constant constant =>
    simp only [press, typeConstant, recover_withModes, apply_ite (withModes modes)]
    rfl
  | function function =>
    have same : (calculator.withModes modes).current = calculator.current := rfl
    rw [press, press, applyFunction, applyFunction, same]
    cases readOperand calculator.current with
    | error error => rfl
    | ok value =>
      have applied := Scientific.apply_modes blind modes.1 calculator.angleMode modes.2
        calculator.inverse value
      dsimp only [withModes]
      rw [applied]
      cases function.apply calculator.angleMode calculator.inverse value <;> rfl
  | delete =>
    simp only [press, delete, apply_ite (withModes modes)]
    rfl
  | clear | evaluate => rfl

/-- Only a toggle changes a mode. -/
theorem modes_press {key : Key} (plain : key.isToggle = false) :
    (calculator.press key).modes = calculator.modes := by
  by_cases reads : key.isTrigonometric = true
  · cases key with
    | function function =>
      simp only [press, applyFunction]
      repeat' split
      all_goals rfl
    | _ => cases reads
  · have kept := press_withModes calculator plain (by simpa using reads) calculator.modes
    have whole : calculator.withModes calculator.modes = calculator := rfl
    rw [whole] at kept
    rw [kept]
    rfl

theorem modes_pressAll {keys : List Key} (plain : ∀ key ∈ keys, key.isToggle = false) :
    (calculator.pressAll keys).modes = calculator.modes := by
  induction keys generalizing calculator with
  | nil => rfl
  | cons key keys ih =>
    obtain ⟨first, others⟩ := List.forall_mem_cons.mp plain
    exact (ih (calculator.press key) others).trans (calculator.modes_press first)

theorem display_press_toggle {key : Key} (toggle : key.isToggle = true) :
    (calculator.press key).display = calculator.display := by
  cases key with
  | toggleAngleMode | toggleInverse => rfl
  | _ => cases toggle

/-- What a key displays depends on what was displayed, and for a trigonometric key on the modes. -/
theorem display_press_eq {first second : Calculator} (same : first.display = second.display)
    {key : Key} (alike : key.isTrigonometric = true → first.modes = second.modes) :
    (first.press key).display = (second.press key).display := by
  by_cases toggle : key.isToggle = true
  · rw [display_press_toggle first toggle, display_press_toggle second toggle, same]
  by_cases reads : key.isTrigonometric = true
  · have equal : first = second := by
      rw [eq_withModes same, alike reads]
      rfl
    rw [equal]
  · rw [eq_withModes same, press_withModes second (by simpa using toggle) (by simpa using reads)]
    rfl

theorem press_toggle {key : Key} (toggle : key.isToggle = true) :
    calculator.press key = calculator.withModes (key.turn calculator.modes) := by
  cases key with
  | toggleAngleMode | toggleInverse => rfl
  | _ => cases toggle

/-- A toggle may be pressed before or after any key that does not read the modes. -/
theorem press_toggle_comm {toggle key : Key} (toggles : toggle.isToggle = true)
    (blind : key.isTrigonometric = false) :
    (calculator.press toggle).press key = (calculator.press key).press toggle := by
  by_cases plain : key.isToggle = false
  · rw [press_toggle _ toggles, press_toggle _ toggles, press_withModes _ plain blind,
      modes_press _ plain]
  · rw [Bool.not_eq_false] at plain
    rw [press_toggle _ toggles, press_toggle _ plain, press_toggle _ plain,
      press_toggle _ toggles]
    exact congrArg (calculator.withModes ·) (Key.turn_comm key toggle calculator.modes)

theorem presses_of_toggles {keys : List Key} (toggles : withoutToggles keys = []) :
    calculator.presses keys = [] ∧ (calculator.pressAll keys).display = calculator.display := by
  induction keys generalizing calculator with
  | nil => exact ⟨rfl, rfl⟩
  | cons key keys ih =>
    have all := List.filter_eq_nil_iff.mp toggles
    have toggle : key.isToggle = true := by simpa using all key (by simp)
    have others : withoutToggles keys = [] := by
      rw [withoutToggles, List.filter_cons_of_neg (by simp [toggle])] at toggles
      exact toggles
    obtain ⟨none, shown⟩ := ih (calculator.press key) others
    constructor
    · rw [presses, if_pos toggle, none]
    · exact shown.trans (calculator.display_press_toggle toggle)

/-- A run up to its first key that is no toggle. -/
theorem exists_first_press {keys moves : List Key} {key : Key}
    (found : withoutToggles keys = key :: moves) :
    ∃ ready later, calculator.presses keys = (ready, key) :: (ready.press key).presses later ∧
      calculator.pressAll keys = (ready.press key).pressAll later ∧
      ready.display = calculator.display ∧ withoutToggles later = moves := by
  induction keys generalizing calculator with
  | nil => cases found
  | cons first keys ih =>
    by_cases toggle : first.isToggle = true
    · rw [withoutToggles, List.filter_cons_of_neg (by simp [toggle])] at found
      obtain ⟨ready, later, pressed, left, shown, rest⟩ := ih (calculator.press first) found
      refine ⟨ready, later, ?_, left, shown.trans (calculator.display_press_toggle toggle), rest⟩
      rw [presses, if_pos toggle, pressed]
    · rw [withoutToggles, List.filter_cons_of_pos (by simpa using toggle)] at found
      obtain ⟨rfl, rest⟩ := List.cons.inj found
      refine ⟨calculator, keys, ?_, rfl, rfl, rest⟩
      rw [presses, if_neg toggle]

/-- Runs of the same keys, toggles apart, display the same after each of them if each trigonometric
key finds the same modes in both. -/
theorem presses_alike {first second : Calculator} (same : first.display = second.display)
    {keys others : List Key} (erased : withoutToggles keys = withoutToggles others)
    (alike : ∀ pair ∈ (first.presses keys).zip (second.presses others),
      pair.1.2.isTrigonometric = true → pair.1.1.modes = pair.2.1.modes) :
    (first.presses keys).map displayAfter = (second.presses others).map displayAfter ∧
      (first.pressAll keys).display = (second.pressAll others).display := by
  -- The induction is on the keys that both runs share.
  generalize shared : withoutToggles others = moves at erased
  induction moves generalizing first second keys others with
  | nil =>
    obtain ⟨none, shown⟩ := first.presses_of_toggles erased
    obtain ⟨none', shown'⟩ := second.presses_of_toggles shared
    rw [none, none', shown, shown', same]
    exact ⟨rfl, rfl⟩
  | cons key moves ih =>
    obtain ⟨ready, later, pressed, left, shown, rest⟩ := first.exists_first_press erased
    obtain ⟨ready', later', pressed', left', shown', rest'⟩ := second.exists_first_press shared
    rw [pressed, pressed', List.zip_cons_cons, List.forall_mem_cons] at alike
    have ready_same : ready.display = ready'.display := by rw [shown, shown', same]
    have stepped := display_press_eq ready_same alike.1
    obtain ⟨displayed, ended⟩ := ih stepped alike.2 rest' rest
    rw [pressed, pressed', left, left', List.map_cons, List.map_cons, displayed]
    exact ⟨congrArg (· :: _) stepped, ended⟩

/-- Without a trigonometric key, a run ends with the same display in all modes. -/
theorem display_pressAll_withModes {keys : List Key}
    (blind : ∀ key ∈ keys, key.isTrigonometric = false) (modes : AngleMode × Bool) :
    ((calculator.withModes modes).pressAll keys).display = (calculator.pressAll keys).display := by
  induction keys generalizing calculator modes with
  | nil => rfl
  | cons key keys ih =>
    obtain ⟨first, others⟩ := List.forall_mem_cons.mp blind
    have stepped : ((calculator.withModes modes).press key).display =
        (calculator.press key).display := by
      apply display_press_eq
      · rfl
      · simp [first]
    show (((calculator.withModes modes).press key).pressAll keys).display = _
    rw [eq_withModes stepped]
    exact ih (calculator.press key) others _

/-- The modes reach nothing but trigonometry. Two runs of the same keys, toggles apart, display the
same after each of these keys as long as each trigonometric key finds the same modes in both. So a
toggle may be pressed before or after any other kind of key, keys that are not trigonometric
display the same in all modes, and only a toggle changes a mode. -/
theorem modes_reach_trigonometry_only (calculator : Calculator) :
    (∀ (other : Calculator) (keys others : List Key), calculator.display = other.display →
        withoutToggles keys = withoutToggles others →
        (∀ pair ∈ (calculator.presses keys).zip (other.presses others),
          pair.1.2.isTrigonometric = true → pair.1.1.modes = pair.2.1.modes) →
        (calculator.presses keys).map displayAfter = (other.presses others).map displayAfter) ∧
      (∀ toggle key : Key, toggle.isToggle = true → key.isTrigonometric = false →
        (calculator.press toggle).press key = (calculator.press key).press toggle) ∧
      (∀ keys : List Key, (∀ key ∈ keys, key.isTrigonometric = false) →
        ∀ modes : AngleMode × Bool,
          ((calculator.withModes modes).pressAll keys).display =
            (calculator.pressAll keys).display) ∧
      ∀ key : Key, key.isToggle = false → (calculator.press key).modes = calculator.modes := by
  refine ⟨?_, ?_, ?_, ?_⟩
  · intro other keys others same erased alike
    exact (presses_alike same erased alike).1
  · intro toggle key toggles blind
    exact calculator.press_toggle_comm toggles blind
  · intro keys blind modes
    exact calculator.display_pressAll_withModes blind modes
  · intro key plain
    exact calculator.modes_press plain

/-- A sine of ninety degrees, in a run that begins in degrees and in one that turns to them. -/
theorem modes_reach_trigonometry_only_sine :
    let sine : Key := .function (.trig .sin)
    let direct := (start .degrees false).presses [.digit '9', .digit '0', sine, .operator '+']
    let turned := (start .radians true).presses
      [.digit '9', .toggleAngleMode, .digit '0', .toggleInverse, sine, .toggleInverse,
        .operator '+']
    direct.map Prod.snd = [.digit '9', .digit '0', sine, .operator '+'] ∧
      direct.map displayAfter = turned.map displayAfter := by
  intro sine direct turned
  constructor
  · rfl
  · apply (modes_reach_trigonometry_only (start .degrees false)).1
    · rfl
    · rfl
    · decide

end Calculator
end PocketCalc
