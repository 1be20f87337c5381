import LibraryGuard.Decimal.Binary64

/-!
# The fewest digits that read back

The numbers that round to a given binary one form an interval, with its ends if the significand is even. The shortest decimal
is a point of the coarsest power-of-ten grid that meets the interval, and of two such points the nearer one. It is written
without an exponent and always with a point.
-/

namespace LibraryGuard.Decimal

/-- The interval of the numbers that round to one, in quarter steps, and whether the ends belong to it. -/
structure RoundingInterval where
  lower : Nat
  upper : Nat
  closed : Bool
  deriving DecidableEq, Repr

/-- The numbers that round to a number of steps. Below a power of two they reach only half as far. -/
def RoundingInterval.of (steps : Nat) : RoundingInterval :=
  let k := spacing steps
  let significand := steps >>> k
  let below := if significand = 1 <<< 52 ∧ 0 < k then 1 <<< k else 2 <<< k
  ⟨4 * steps - below, 4 * steps + 2 <<< k, significand % 2 = 0⟩

/-- Whether the quotient of two natural numbers of quarter steps is in the interval. -/
def RoundingInterval.contains (i : RoundingInterval) (n d : Nat) : Bool :=
  if i.closed then i.lower * d ≤ n && n ≤ i.upper * d else i.lower * d < n && n < i.upper * d

/-- The point of the grid of multiples of `10 ^ exponent` nearest to a number of steps, if one rounds to it. -/
def gridPoint? (steps : Nat) (exponent : Int) : Option Nat :=
  let unit := Nat.pow 10 exponent.toNat <<< 1076
  let scale := Nat.pow 10 (-exponent).toNat
  let value := 4 * steps * scale
  let q := value / unit
  let within := fun c => (RoundingInterval.of steps).contains (c * unit) scale
  let lowerIsNearer := 2 * (value % unit) ≤ unit
  if within q && (lowerIsNearer || !within (q + 1)) then some q
  else if within (q + 1) then some (q + 1)
  else none

/-- The first grid among so many finer and finer ones that has a point that rounds to the number of steps. -/
def shortestFrom (steps : Nat) : Nat → Int → Nat × Int
  | 0, exponent => (0, exponent)
  | count + 1, exponent =>
    match gridPoint? steps exponent with
    | some digits => (digits, exponent)
    | none => shortestFrom steps count (exponent - 1)

/-- The shortest decimal `digits * 10 ^ exponent` that rounds to a number of steps. -/
def shortest (steps : Nat) : Nat × Int := shortestFrom steps 640 309

/-- A decimal number without an exponent and with a point. -/
def positional (digits : Nat) (exponent : Int) : List Char :=
  let written := Nat.toDigits 10 digits
  if 0 ≤ exponent then written ++ List.replicate exponent.toNat '0' ++ ['.', '0']
  else
    let places := (-exponent).toNat
    let padded := List.replicate (places + 1 - written.length) '0' ++ written
    padded.take (padded.length - places) ++ '.' :: padded.drop (padded.length - places)

/-- The shortest text of a number. -/
def Binary64.text : Binary64 → String
  | .nan => "NaN"
  | .infinite negative => if negative then "-inf" else "inf"
  | .finite negative steps =>
    let (digits, exponent) := if steps = 0 then (0, 0) else shortest steps
    (if negative then "-" else "") ++ String.ofList (positional digits exponent)

end LibraryGuard.Decimal
