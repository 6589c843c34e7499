import PocketCalc.Number.Binary64

/-!
# Factorials

The factorial of a double is defined where the double is a whole number that is not below zero. It
is the product from the argument downward, rounded after each step and given up once it is
infinite.
-/
namespace PocketCalc.Factorial

/-- More steps than this are never taken: the largest finite factorial is that of 170, and a
factor that no longer shrinks under subtraction is large enough to pass every double in a few. -/
def stepLimit : Nat := 170

def descend : (steps : Nat) → (product factor : Float) → Float
  | 0, product, _ => product
  | steps + 1, product, factor =>
    if 1 < factor ∧ product.isFinite then descend steps (product * factor) (factor - 1)
    else product

def factorial? (argument : Float) : Option Float :=
  if argument < 0 || Binary64.fract argument != 0 then none
  else some (descend stepLimit 1 argument)

end PocketCalc.Factorial
