import PocketCalc.Number.Decimal

/-!
# The shortest decimal of a double

Among the decimals that read back as a given magnitude this one has the fewest digits, and of
those with as many it is the nearest. The magnitude written out in full always reads back, so the
search needs no answer for failure.
-/
namespace PocketCalc.Decimal

open Binary64 (unitExponent unitsPerOne unitsOfWord)

/-- A magnitude in units of `10 ^ -unitExponent`, in which every finite double is whole. -/
def expand (units : Nat) : Nat :=
  units * 5 ^ unitExponent

/-- The decimals just below and above a magnitude with that many of its last digits left out.
Where both read back the nearer wins, and the upper of two equally near. -/
def candidate? (word expanded omitted : Nat) : Option Decimal :=
  let below : Decimal := ⟨expanded / 10 ^ omitted, omitted - unitExponent⟩
  let above : Decimal := ⟨expanded / 10 ^ omitted + 1, omitted - unitExponent⟩
  if below.word = word ∧ (above.word ≠ word ∨ 2 * (expanded % 10 ^ omitted) < 10 ^ omitted) then
    some below
  else if above.word = word then some above
  else none

/-- Takes the first decimal that reads back while fewer and fewer digits are left out. -/
def search (word expanded : Nat) : (omitted : Nat) → Decimal
  | 0 => ⟨expanded, -unitExponent⟩
  | omitted + 1 =>
    match candidate? word expanded (omitted + 1) with
    | some decimal => decimal
    | none => search word expanded omitted

def shortest (word : Nat) : Decimal :=
  let expanded := expand (unitsOfWord word)
  search word expanded ((Nat.toDigits 10 expanded).length - 1)

theorem word_of_candidate? {word expanded omitted : Nat} {decimal : Decimal}
    (h : candidate? word expanded omitted = some decimal) : decimal.word = word := by
  unfold candidate? at h
  dsimp only at h
  split at h
  next read => exact Option.some.inj h ▸ read.1
  · split at h
    next read => exact Option.some.inj h ▸ read
    · contradiction

theorem word_search {word expanded : Nat} (full : (⟨expanded, -unitExponent⟩ : Decimal).word = word)
    (omitted : Nat) : (search word expanded omitted).word = word := by
  induction omitted with
  | zero => exact full
  | succ omitted ih =>
    rw [search]
    split
    next decimal found => exact word_of_candidate? found
    · exact ih

/-- The shortest decimal of a finite double reads back as that double. -/
theorem word_shortest {word : Nat} (finite : word < Binary64.infinityWord) :
    (shortest word).word = word := by
  refine word_search ?_ _
  rw [word_eq_nearestWord]
  refine Binary64.nearestWord_of_units (Nat.pow_pos (by decide)) finite ?_
  simp only [numerator, denominator, expand]
  rw [show (-(unitExponent : Int)).toNat = 0 by omega,
    show (- -(unitExponent : Int)).toNat = unitExponent by omega,
    Nat.pow_zero, Nat.mul_one, Nat.mul_assoc, Nat.mul_comm (5 ^ unitExponent), unitsPerOne,
    ← Nat.mul_pow]

end PocketCalc.Decimal
