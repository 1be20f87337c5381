/-!
# Binary floating-point numbers from decimal ones

A finite number of the 64-bit binary format is a count of the smallest positive step, `2 ^ -1074`, with at most 53 significant
bits. `ofDecimal` rounds a decimal number to the nearest such count, a tie to the even one, and to infinity past the largest.
-/

namespace LibraryGuard.Decimal

/-- A number of the 64-bit binary format. -/
inductive Binary64 where
  | nan
  | infinite (negative : Bool)
  /-- So many steps of `2 ^ -1074`. -/
  | finite (negative : Bool) (steps : Nat)
  deriving DecidableEq, Repr

/-- The quotient of two natural numbers, rounded to the nearest, a tie to the even one. -/
def roundQuotient (n d : Nat) : Nat :=
  let q := n / d
  let twice := 2 * (n % d)
  if twice < d then q else if d < twice then q + 1 else q + q % 2

/-- The power of two that steps of a number of this size are counted in. -/
def spacing (steps : Nat) : Nat := steps.log2 - 52

/-- The number of steps nearest to a quotient of steps that has a 53-bit significand. -/
def nearestSteps (n d : Nat) : Nat :=
  let k := spacing (n / d)
  roundQuotient n (d <<< k) <<< k

/-- The first number of steps that is past every finite number. -/
def stepLimit : Nat := 1 <<< 2098

namespace Binary64

/-- Decimal exponents of the leading digit past which a number is infinite or zero in any case. -/
def exponentLimit : Int := 400

/-- The nearest number to `digits * 10 ^ exponent`. -/
def ofDecimal (negative : Bool) (digits : Nat) (exponent : Int) : Binary64 :=
  let leading := exponent + (Nat.toDigits 10 digits).length
  if digits = 0 ∨ leading < -exponentLimit then .finite negative 0
  else if exponentLimit < leading then .infinite negative
  else
    let steps := nearestSteps ((digits * Nat.pow 10 exponent.toNat) <<< 1074) (Nat.pow 10 (-exponent).toNat)
    if stepLimit ≤ steps then .infinite negative else .finite negative steps

end Binary64

end LibraryGuard.Decimal
