namespace QueryDialect

/-- A decimal number `digits · 10 ^ exponent`. -/
structure Decimal where
  digits : Nat
  exponent : Int

namespace Decimal

/-- A magnitude `mantissa · 2 ^ exponent`; `narrowBelow` says that the float below it is only half
as far away as the float above it. -/
structure Binary where
  mantissa : Nat
  exponent : Int
  narrowBelow : Bool

def Binary.ofBits (bits : UInt64) : Binary :=
  let fraction : Nat := bits.toNat % Nat.pow 2 52
  let biased : Nat := bits.toNat / Nat.pow 2 52 % Nat.pow 2 11
  if biased = 0 then ⟨fraction, -1074, false⟩
  else ⟨Nat.pow 2 52 + fraction, (biased : Int) - 1075, fraction = 0 ∧ 1 < biased⟩

/-- The reals from `lower / denominator` to `upper / denominator` around `value / denominator`,
with both ends if it is `closed` and without them otherwise. -/
structure Interval where
  lower : Nat
  value : Nat
  upper : Nat
  denominator : Nat
  closed : Bool

/-- The reals that round to the float: up to half-way to either neighbour, and an end counts when
the mantissa is even. -/
def Binary.interval (b : Binary) : Interval :=
  let unit := Nat.pow 2 (b.exponent - 2).toNat
  { lower := (4 * b.mantissa - if b.narrowBelow then 1 else 2) * unit
    value := 4 * b.mantissa * unit
    upper := (4 * b.mantissa + 2) * unit
    denominator := Nat.pow 2 (2 - b.exponent).toNat
    closed := b.mantissa % 2 = 0 }

namespace Interval

/-- The same interval in units of `10 ^ exponent`. -/
def inUnits (i : Interval) (exponent : Int) : Interval :=
  let up := Nat.pow 10 (-exponent).toNat
  { lower := i.lower * up
    value := i.value * up
    upper := i.upper * up
    denominator := i.denominator * Nat.pow 10 exponent.toNat
    closed := i.closed }

def contains (i : Interval) (n : Nat) : Bool :=
  let point := n * i.denominator
  if i.closed then i.lower ≤ point && point ≤ i.upper else i.lower < point && point < i.upper

/-- The whole number of the interval that is nearest to its value, the even one of two that are
equally near. Only the two neighbours of the value can be nearest. -/
def nearest? (i : Interval) : Option Nat :=
  let floor := i.value / i.denominator
  let twice := 2 * (i.value % i.denominator)
  match i.contains floor, i.contains (floor + 1) with
  | true, true =>
    if twice < i.denominator ∨ (twice = i.denominator ∧ floor % 2 = 0) then some floor
    else some (floor + 1)
  | true, false => some floor
  | false, true => some (floor + 1)
  | false, false => none

/-- The power of ten of the first digit of the value, which is at least `10 ^ (-400)`. -/
def leadingExponent (i : Interval) : Int :=
  (Nat.toDigits 10 (i.value * Nat.pow 10 400 / i.denominator)).length - 401

/-- The first point found on the grid of `10 ^ exponent` or on one of the `finer` grids after it;
the finest grid rounds down. -/
def coarsest (i : Interval) (exponent : Int) : (finer : Nat) → Decimal
  | 0 => ⟨(i.inUnits exponent).value / (i.inUnits exponent).denominator, exponent⟩
  | finer + 1 =>
    match (i.inUnits exponent).nearest? with
    | some digits => ⟨digits, exponent⟩
    | none => i.coarsest (exponent - 1) finer

/-- Seventeen digits tell any two floats apart, so seventeen grids are enough. -/
def shortest (i : Interval) : Decimal :=
  i.coarsest i.leadingExponent 17

end Interval

/-- The shortest decimal for the magnitude of a finite float other than zero. -/
def ofBits (bits : UInt64) : Decimal :=
  (Binary.ofBits bits).interval.shortest

end Decimal
end QueryDialect
