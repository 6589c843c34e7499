import PocketCalc.Function.Scientific
import PocketCalc.Proofs.Fraction

/-!
# The factorial loop

The loop multiplies the factor into the product and takes one from it, while the factor is above
one and the product is finite. From a whole number of at most 170 the factor runs through all the
whole numbers below it. From a larger one it need not, but the product is at least what the loop
from 171 makes of it, which is infinite before the factor is used up.
-/
namespace PocketCalc.Factorial

open Binary64

/-- One turn of the loop over the product and the factor, where the loop has one. -/
def turn? (state : Float × Float) : Option (Float × Float) :=
  if 1 < state.2 ∧ state.1.isFinite then some (state.1 * state.2, state.2 - 1) else none

def turns : (count : Nat) → Float × Float → Option (Float × Float)
  | 0, state => some state
  | count + 1, state => (turn? state).bind (turns count)

theorem descend_of_stop {state : Float × Float} (stop : turn? state = none) (limit : Nat) :
    descend limit state.1 state.2 = state.1 := by
  cases limit with
  | zero => rfl
  | succ limit =>
    unfold turn? at stop
    rw [descend, if_neg]
    intro goes
    rw [if_pos goes] at stop
    cases stop

/-- A limit on the turns that leaves room for all of them is not seen. -/
theorem descend_of_turns {count limit : Nat} {state final : Float × Float}
    (run : turns count state = some final) (stop : turn? final = none) (room : count ≤ limit) :
    descend limit state.1 state.2 = final.1 := by
  induction count generalizing limit state with
  | zero =>
    cases run
    exact descend_of_stop stop limit
  | succ count ih =>
    obtain ⟨limit, rfl⟩ : ∃ rest, limit = rest + 1 := ⟨limit - 1, by omega⟩
    obtain ⟨next, step, rest⟩ := Option.bind_eq_some_iff.mp run
    have tail := ih rest (Nat.le_of_succ_le_succ room)
    unfold turn? at step
    split at step
    next goes =>
      cases step
      rw [descend, if_pos goes]
      exact tail
    next => cases step

/-- The word of the product of a double and a whole number, rounded. -/
def timesWord (word factor : Nat) : Nat :=
  if word = infinityWord then infinityWord else nearestWord (unitsOfWord word * factor) unitsPerOne

/-- The word of `word * number * (number - 1) * ... * 2`, rounded after each multiplication, from
the left. -/
def productFrom (word : Nat) : (number : Nat) → Nat
  | 0 | 1 => word
  | number + 2 => productFrom (timesWord word (number + 2)) (number + 1)

theorem timesWord_le (word factor : Nat) : timesWord word factor ≤ infinityWord := by
  unfold timesWord
  split
  · exact Nat.le_refl _
  · exact nearestWord_le _ _

theorem le_timesWord {word factor : Nat} (bound : word ≤ infinityWord) (positive : 0 < factor) :
    word ≤ timesWord word factor := by
  unfold timesWord
  split
  next infinite => exact bound
  next finite =>
    calc word = nearestWord (unitsOfWord word) unitsPerOne :=
          (nearestWord_unitsOfWord (by omega)).symm
      _ ≤ nearestWord (unitsOfWord word * factor) unitsPerOne :=
          nearestWord_mono unitsPerOne_pos unitsPerOne_pos
            (Nat.mul_le_mul_right _ (Nat.le_mul_of_pos_right _ positive))

theorem timesWord_mono {word word' : Nat} (bound : word' ≤ infinityWord) (h : word ≤ word')
    (factor : Nat) : timesWord word factor ≤ timesWord word' factor := by
  by_cases infinite : word' = infinityWord
  · have top : timesWord word' factor = infinityWord := if_pos infinite
    rw [top]
    exact timesWord_le _ _
  · have finite : word' < infinityWord := by omega
    rw [timesWord, if_neg (by omega), timesWord, if_neg infinite]
    exact nearestWord_mono unitsPerOne_pos unitsPerOne_pos
      (Nat.mul_le_mul_right _ (Nat.mul_le_mul_right _ (unitsOfWord_mono finite h)))

theorem productFrom_le {word : Nat} (bound : word ≤ infinityWord) (number : Nat) :
    productFrom word number ≤ infinityWord := by
  fun_induction productFrom word number with
  | case1 => exact bound
  | case2 => exact bound
  | case3 word number ih => exact ih (timesWord_le _ _)

theorem le_productFrom {word : Nat} (bound : word ≤ infinityWord) (number : Nat) :
    word ≤ productFrom word number := by
  fun_induction productFrom word number with
  | case1 => exact Nat.le_refl _
  | case2 => exact Nat.le_refl _
  | case3 word number ih =>
    exact Nat.le_trans (le_timesWord bound (Nat.succ_pos _)) (ih (timesWord_le _ _))

theorem productFrom_mono {word word' : Nat} (bound : word' ≤ infinityWord) (h : word ≤ word')
    (number : Nat) : productFrom word number ≤ productFrom word' number := by
  fun_induction productFrom word number generalizing word' with
  | case1 => exact h
  | case2 => exact h
  | case3 word number ih => exact ih (timesWord_le _ _) (timesWord_mono bound h _)

/-- A larger number has the larger product: its first factors only make the product larger. -/
theorem productFrom_mono_number {word number number' : Nat} (bound : word ≤ infinityWord)
    (h : number ≤ number') : productFrom word number ≤ productFrom word number' := by
  induction number', h using Nat.le_induction with
  | base => exact Nat.le_refl _
  | succ number' _ ih =>
    refine Nat.le_trans ih ?_
    cases number' with
    | zero => exact Nat.le_refl _
    | succ number' =>
      exact productFrom_mono (timesWord_le _ _) (le_timesWord bound (Nat.succ_pos _)) _

/-- `timesWord` for a word of normal size, by its fields: the numbers stay small. -/
def timesFields (word factor : Nat) : Nat :=
  let mantissa := (2 ^ 52 + word % 2 ^ 52) * factor
  let shift := mantissa.log2 - 52
  min ((shift + (word / 2 ^ 52 - 1)) * 2 ^ 52 + roundHalfEven mantissa (2 ^ shift)) infinityWord

def productOfFields (word : Nat) : (number : Nat) → Nat
  | 0 | 1 => word
  | number + 2 => productOfFields (timesFields word (number + 2)) (number + 1)

theorem timesWord_eq_timesFields {word factor : Nat} (normal : 2 ^ 52 ≤ word)
    (positive : 0 < factor) :
    timesWord word factor = timesFields word factor := by
  have wide : 2 ^ 52 ≤ (2 ^ 52 + word % 2 ^ 52) * factor :=
    Nat.le_trans (Nat.le_add_right _ _) (Nat.le_mul_of_pos_right _ positive)
  unfold timesWord
  split
  next infinite =>
    obtain ⟨above, -⟩ := roundHalfEven_of_wide wide
    unfold timesFields
    dsimp only
    generalize roundHalfEven _ _ = rounded at *
    rw [infinite]
    unfold infinityWord
    omega
  next finite =>
    rw [unitsOfWord_of_normal normal, Nat.mul_right_comm, unitsPerOne,
      nearestWord_of_wide wide (Nat.add_comm _ _)]
    rfl

theorem productFrom_eq_productOfFields {word : Nat} (normal : 2 ^ 52 ≤ word)
    (bound : word ≤ infinityWord) (number : Nat) :
    productFrom word number = productOfFields word number := by
  fun_induction productFrom word number with
  | case1 => rfl
  | case2 => rfl
  | case3 word number ih =>
    have positive : 0 < number + 2 := Nat.succ_pos _
    have grows := le_timesWord bound positive
    rw [ih (Nat.le_trans normal grows) (timesWord_le word (number + 2)),
      timesWord_eq_timesFields normal positive]
    rfl

/-- The largest factorial that is finite is that of 170. -/
theorem productFrom_limit :
    productFrom oneWord 170 < infinityWord ∧ productFrom oneWord 171 = infinityWord := by
  have fields := productFrom_eq_productOfFields (show 2 ^ 52 ≤ oneWord by decide) (by decide)
  have limit : productOfFields oneWord 170 < infinityWord ∧
      productOfFields oneWord 171 = infinityWord := by decide +kernel
  exact ⟨(fields 170).trans_lt limit.1, (fields 171).trans limit.2⟩

theorem wholeWord_one : wholeWord 1 = oneWord := by
  have one := wholeWord_two_pow (Nat.zero_le 1023)
  rw [Nat.pow_zero] at one
  rw [one]
  rfl

theorem oneWord_lt_wholeWord {number : Nat} (h : 2 ≤ number) : oneWord < wholeWord number := by
  have two := wholeWord_two_pow (show 1 ≤ 1023 by decide)
  rw [Nat.pow_one] at two
  have above : oneWord < (1023 + 1) * 2 ^ 52 := by decide
  rw [← two] at above
  exact Nat.lt_of_lt_of_le above (wholeWord_mono h)

theorem not_one_lt_one : ¬ (1 : Float) < 1 := by
  decide

theorem turn?_infinity (factor : Float) : turn? (infinity, factor) = none := by
  rw [turn?, not_isFinite_infinity]
  exact if_neg (fun goes => Bool.false_ne_true goes.2)

/-- The factor's word says whether it is above one and what the two results are rounded from. -/
theorem turn?_ofWord {word factor number : Nat} (large : oneWord ≤ word)
    (finite : word < infinityWord) (two : 2 ≤ number) (h : wholeWord number ≤ factor)
    (finite' : factor < infinityWord) :
    turn? (ofWord word, ofWord factor) =
      some (ofWord (nearestWord (unitsOfWord word * unitsOfWord factor)
          (unitsPerOne * unitsPerOne)),
        ofWord (nearestWord (unitsOfWord factor - unitsPerOne) unitsPerOne)) := by
  have above : oneWord < factor := Nat.lt_of_lt_of_le (oneWord_lt_wholeWord two) h
  have goes : 1 < ofWord factor ∧ (ofWord word).isFinite = true :=
    ⟨(one_lt_ofWord_iff (Nat.le_of_lt above) finite').mpr above,
      isFinite_ofWord (Nat.ne_of_gt (Nat.lt_of_lt_of_le (by decide) large)) finite⟩
  rw [turn?, if_pos goes, ofWord_mul large finite (Nat.le_of_lt above) finite',
    ofWord_sub_one (Nat.le_of_lt above) finite']

/-- Where the factor is a whole number, the next one is the whole number below. -/
theorem turn?_wholeWord {word number : Nat} (large : oneWord ≤ word)
    (finite : word < infinityWord) (small : number + 2 < 2 ^ 53) :
    turn? (ofWord word, ofWord (wholeWord (number + 2))) =
      some (ofWord (timesWord word (number + 2)), ofWord (wholeWord (number + 1))) := by
  have product : nearestWord (unitsOfWord word * ((number + 2) * unitsPerOne))
      (unitsPerOne * unitsPerOne) = timesWord word (number + 2) := by
    rw [timesWord, if_neg (Nat.ne_of_lt finite), ← Nat.mul_assoc, Nat.mul_comm _ unitsPerOne,
      nearestWord_mul_left unitsPerOne_pos]
  have factor : nearestWord ((number + 2) * unitsPerOne - unitsPerOne) unitsPerOne =
      wholeWord (number + 1) := by
    refine nearestWord_congr unitsPerOne_pos Nat.one_pos ?_
    rw [Nat.mul_one, ← Nat.sub_one_mul]
    rfl
  rw [turn?_ofWord large finite (Nat.le_add_left _ _) (Nat.le_refl _) (wholeWord_lt small),
    unitsOfWord_wholeWord small, product, factor]

/-- As long as the product stays finite, the loop goes through all the whole numbers. -/
theorem turns_of_finite {word number : Nat} (large : oneWord ≤ word) (bound : word ≤ infinityWord)
    (small : number + 1 < 2 ^ 53) (finite : productFrom word (number + 1) < infinityWord) :
    turns number (ofWord word, ofWord (wholeWord (number + 1))) =
      some (ofWord (productFrom word (number + 1)), 1) := by
  induction number generalizing word with
  | zero =>
    rw [wholeWord_one, ofWord_oneWord]
    rfl
  | succ number ih =>
    have start : word < infinityWord := Nat.lt_of_le_of_lt (le_productFrom bound _) finite
    rw [turns, turn?_wholeWord large start small]
    exact ih (Nat.le_trans large (le_timesWord bound (Nat.succ_pos _))) (timesWord_le _ _)
      (Nat.lt_of_succ_lt small) finite

/-- A turn from a larger product and a larger factor leaves both larger again. -/
theorem le_turn {reference word number factor : Nat} (h : reference ≤ word)
    (start : word < infinityWord) (small : number + 1 < 2 ^ 53)
    (above : wholeWord (number + 1) ≤ factor) (finite : factor < infinityWord) :
    timesWord reference (number + 1) ≤
        nearestWord (unitsOfWord word * unitsOfWord factor) (unitsPerOne * unitsPerOne) ∧
      wholeWord number ≤ nearestWord (unitsOfWord factor - unitsPerOne) unitsPerOne := by
  have units : (number + 1) * unitsPerOne ≤ unitsOfWord factor := by
    rw [← unitsOfWord_wholeWord small]
    exact unitsOfWord_mono finite above
  constructor
  · rw [timesWord, if_neg (by omega)]
    refine nearestWord_mono unitsPerOne_pos (Nat.mul_pos unitsPerOne_pos unitsPerOne_pos) ?_
    rw [← Nat.mul_assoc]
    refine Nat.mul_le_mul_right _ ?_
    rw [Nat.mul_assoc]
    exact Nat.mul_le_mul (unitsOfWord_mono start h) units
  · refine nearestWord_mono Nat.one_pos unitsPerOne_pos ?_
    rw [Nat.mul_one]
    rw [Nat.succ_mul] at units
    exact Nat.le_sub_of_add_le units

theorem sub_one_le {factor : Nat} (finite : factor < infinityWord) :
    nearestWord (unitsOfWord factor - unitsPerOne) unitsPerOne ≤ factor := by
  calc nearestWord (unitsOfWord factor - unitsPerOne) unitsPerOne
      ≤ nearestWord (unitsOfWord factor) unitsPerOne :=
        nearestWord_mono unitsPerOne_pos unitsPerOne_pos
          (Nat.mul_le_mul_right _ (Nat.sub_le _ _))
    _ = factor := nearestWord_unitsOfWord finite

/-- Where the product of a lower start goes to infinity, the loop stops there, and no later. -/
theorem exists_turns_of_infinite {reference word number factor : Nat} (large : oneWord ≤ reference)
    (h : reference ≤ word) (bound : word ≤ infinityWord) (small : number < 2 ^ 53)
    (above : wholeWord number ≤ factor) (finite : factor < infinityWord)
    (infinite : productFrom reference number = infinityWord) :
    ∃ count ≤ number - 1, ∃ last,
      turns count (ofWord word, ofWord factor) = some (infinity, last) := by
  induction number generalizing reference word factor with
  | zero =>
    have stopped : word = infinityWord := Nat.le_antisymm bound (infinite ▸ h)
    exact ⟨0, Nat.le_refl _, ofWord factor, by rw [stopped]; rfl⟩
  | succ number ih =>
    by_cases stopped : word = infinityWord
    · exact ⟨0, Nat.zero_le _, ofWord factor, by rw [stopped]; rfl⟩
    · have start : word < infinityWord := by omega
      cases number with
      | zero => exact absurd (Nat.le_antisymm bound (infinite ▸ h)) stopped
      | succ number =>
        have step := turn?_ofWord (Nat.le_trans large h) start (Nat.le_add_left 2 number) above
          finite
        obtain ⟨product, next⟩ := le_turn h start small above finite
        obtain ⟨count, within, last, run⟩ := ih
          (Nat.le_trans large (le_timesWord (Nat.le_trans h bound) (Nat.succ_pos _))) product
          (nearestWord_le _ _) (Nat.lt_of_succ_lt small) next
          (Nat.lt_of_le_of_lt (sub_one_le finite) finite) infinite
        refine ⟨count + 1, by omega, last, ?_⟩
        rw [turns, step]
        exact run

/-- The arguments that the factorial is not defined for. -/
def Undefined (argument : Float) : Prop :=
  parts argument = .notANumber ∨ (∃ negative, parts argument = .infinite negative) ∨
    argument < 0 ∨
    ∃ negative word, parts argument = .finite negative word ∧
      ¬ unitsPerOne ∣ unitsOfWord word

/-- The whole number that a double stands for; zero has two doubles. -/
def Stands (argument : Float) (number : Nat) : Prop :=
  ∃ negative word, parts argument = .finite negative word ∧
    unitsOfWord word = number * unitsPerOne ∧ (negative = true → number = 0)

/-- A negative number is refused in any case. What is not finite has no fraction that is a number,
so that the fraction of it differs from zero. -/
theorem refused_iff (argument : Float) :
    (argument < 0 || fract argument != 0) = true ↔ Undefined argument := by
  rw [Bool.or_eq_true, decide_eq_true_eq]
  unfold Undefined
  have value := ofParts_parts argument
  cases kind : parts argument with
  | notANumber =>
    rw [kind] at value
    subst value
    exact iff_of_true (.inr (by decide +kernel)) (.inl rfl)
  | infinite negative =>
    rw [kind] at value
    subst value
    refine iff_of_true (.inr ?_) (.inr (.inl ⟨negative, rfl⟩))
    cases negative <;> decide +kernel
  | finite negative word =>
    rw [kind] at value
    subst value
    have finite := lt_infinityWord_of_parts kind
    cases negative with
    | false =>
      have fractional : (fract (ofWord word) != 0) = true ↔ ¬ unitsPerOne ∣ unitsOfWord word :=
        fract_ofWord_bne_zero finite
      simp [ofParts, fractional]
    | true =>
      by_cases zero : word = 0
      · subst zero
        have least : ¬ ofParts (.finite true 0) < 0 := by decide +kernel
        have whole : unitsPerOne ∣ unitsOfWord 0 := Nat.dvd_zero unitsPerOne
        refine iff_of_false (by decide +kernel) ?_
        simp [least, whole]
      · have below := neg_ofWord_lt_zero finite zero
        exact iff_of_true (.inl below) (.inr (.inr (.inl below)))

theorem stands_two_pow {exponent : Nat} (h : exponent ≤ 1023) :
    Stands (ofWord ((1023 + exponent) * 2 ^ 52)) (2 ^ exponent) := by
  have finite : (1023 + exponent) * 2 ^ 52 < infinityWord := by
    unfold infinityWord
    omega
  exact ⟨false, _, parts_ofWord finite, unitsOfWord_two_pow exponent, nofun⟩

theorem factorial?_eq_none_iff (argument : Float) :
    factorial? argument = none ↔ Undefined argument := by
  rw [← refused_iff, factorial?]
  split
  next refused => exact iff_of_true rfl refused
  next accepted => exact iff_of_false (Option.some_ne_none _) accepted

theorem factorial?_of_defined {argument : Float} (h : ¬ Undefined argument) :
    factorial? argument = some (descend stepLimit 1 argument) := by
  rw [← refused_iff] at h
  rw [factorial?, if_neg h]

theorem Stands.parts {argument : Float} {number : Nat} (h : Stands argument number) :
    ∃ negative, parts argument = .finite negative (wholeWord number) ∧
      (negative = true → number = 0) := by
  obtain ⟨negative, word, kind, units, unsigned⟩ := h
  rw [wholeWord_of_units (lt_infinityWord_of_parts kind) units]
  exact ⟨negative, kind, unsigned⟩

theorem exists_stands {argument : Float} (h : ¬ Undefined argument) :
    ∃ number, Stands argument number := by
  unfold Undefined at h
  cases kind : Binary64.parts argument with
  | notANumber => exact absurd (.inl kind) h
  | infinite negative => exact absurd (.inr (.inl ⟨negative, kind⟩)) h
  | finite negative word =>
    obtain ⟨number, units⟩ : unitsPerOne ∣ unitsOfWord word := by
      by_contra part
      exact h (.inr (.inr (.inr ⟨negative, word, kind, part⟩)))
    rw [Nat.mul_comm] at units
    refine ⟨number, negative, word, kind, units, ?_⟩
    rintro rfl
    have value := ofParts_parts argument
    rw [kind] at value
    change -(ofWord word) = argument at value
    have zero : word = 0 := by
      by_contra nonzero
      rw [← value] at h
      exact h (.inr (.inr (.inl
        (neg_ofWord_lt_zero (lt_infinityWord_of_parts kind) nonzero))))
    subst zero
    rcases Nat.mul_eq_zero.mp units.symm with none | none
    · exact none
    · exact absurd none (Nat.ne_of_gt unitsPerOne_pos)

theorem productFrom_of_large {number : Nat} (h : 171 ≤ number) :
    productFrom oneWord number = infinityWord := by
  have bound : oneWord ≤ infinityWord := by decide
  apply Nat.le_antisymm (productFrom_le bound number)
  rw [← productFrom_limit.2]
  exact productFrom_mono_number bound h

theorem productFrom_of_small {number : Nat} (h : number ≤ 170) :
    productFrom oneWord number < infinityWord :=
  Nat.lt_of_le_of_lt (productFrom_mono_number (by decide) h) productFrom_limit.1

theorem isFinite_productFrom {number : Nat} (h : number ≤ 170) :
    (ofWord (productFrom oneWord number)).isFinite = true :=
  have bound : oneWord ≤ infinityWord := by decide
  have large : oneWord ≤ productFrom oneWord number := le_productFrom bound number
  isFinite_ofWord (Nat.ne_of_gt (Nat.lt_of_lt_of_le (by decide) large)) (productFrom_of_small h)

/-- The loop ends for every whole number, after at most 170 turns. -/
theorem exists_run {argument : Float} {number : Nat} (h : Stands argument number) :
    ∃ count ≤ 170, ∃ final, turns count (1, argument) = some final ∧ turn? final = none ∧
      final.1 = ofWord (productFrom oneWord number) := by
  obtain ⟨negative, kind, unsigned⟩ := h.parts
  have value := ofParts_parts argument
  rw [kind] at value
  cases number with
  | zero =>
    have least : ¬ 1 < argument := by
      have zero : wholeWord 0 = 0 := Decimal.nearestWord_zero 1
      rw [← value, zero]
      cases negative <;> decide
    exact ⟨0, Nat.zero_le _, (1, argument), rfl, if_neg (fun goes => least goes.1),
      ofWord_oneWord.symm⟩
  | succ number =>
    have positive : negative = false := by
      by_contra sign
      exact absurd (unsigned (Bool.eq_true_of_not_eq_false sign)) (Nat.succ_ne_zero number)
    rw [positive] at value
    change ofWord (wholeWord (number + 1)) = argument at value
    rw [← value, ← ofWord_oneWord]
    by_cases small : number + 1 ≤ 170
    · refine ⟨number, by omega, _, turns_of_finite (Nat.le_refl _) (by decide) (by omega)
        (productFrom_of_small small), ?_, rfl⟩
      exact if_neg (fun goes => not_one_lt_one goes.1)
    · obtain ⟨count, within, last, run⟩ := exists_turns_of_infinite (Nat.le_refl oneWord)
        (Nat.le_refl oneWord) (by decide) (by decide) (wholeWord_mono (by omega))
        (lt_infinityWord_of_parts kind) productFrom_limit.2
      refine ⟨count, within, _, run, turn?_infinity last, ?_⟩
      rw [productFrom_of_large (by omega)]
      rfl

/-- The factorial is refused for exactly the arguments that it is not defined for. For every
other one the loop ends by itself within the limit, with the product rounded after each
multiplication; a factor may stay as it is, yet the product is infinite from 171 on. -/
theorem apply_factorial (mode : AngleMode) (inverse : Bool) (argument : Float) :
    (Scientific.factorial.apply mode inverse argument = .error (.factorialUndefined argument) ↔
      Undefined argument) ∧
    (Undefined argument ∨
      ∃ number count final, Stands argument number ∧ count ≤ 170 ∧
        turns count (1, argument) = some final ∧ turn? final = none ∧
        Scientific.factorial.apply mode inverse argument = .ok final.1 ∧
        final.1 = ofWord (productFrom oneWord number) ∧
        (number ≤ 170 → final.1.isFinite = true) ∧ (171 ≤ number → final.1 = infinity)) ∧
    ∃ factor number, Stands factor number ∧ 2 ^ 53 < number ∧ factor - 1 = factor := by
  refine ⟨?_, ?_, ?_⟩
  · rw [← factorial?_eq_none_iff, Scientific.apply]
    cases factorial? argument <;> simp
  · by_cases defined : Undefined argument
    · exact .inl defined
    · obtain ⟨number, stands⟩ := exists_stands defined
      obtain ⟨count, within, final, run, stop, product⟩ := exists_run stands
      have result : Scientific.factorial.apply mode inverse argument = .ok final.1 := by
        have reached : descend stepLimit 1 argument = final.1 := descend_of_turns run stop within
        rw [Scientific.apply, factorial?_of_defined defined, reached]
      refine .inr ⟨number, count, final, stands, within, run, stop, result, product, ?_, ?_⟩
      · intro small
        rw [product]
        exact isFinite_productFrom small
      · intro large
        rw [product, productFrom_of_large large]
        rfl
  · have stands := stands_two_pow (show 54 ≤ 1023 by decide)
    exact ⟨ofWord ((1023 + 54) * 2 ^ 52), 2 ^ 54, stands, by decide, by decide⟩

end PocketCalc.Factorial
