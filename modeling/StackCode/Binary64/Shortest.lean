import StackCode.Binary64.Round

/-!
# Shortest decimals

`Decimal.shortest` gives the decimal with the fewest digits that rounds to a given double. A grid
of `k` digits is the set of multiples of a power of ten on which the number has `k` digits. If any
point of a grid rounds to the number, one of the two neighbours of the number on that grid does, so
it is enough to look at those, for one digit, two digits, and so on. Of two hits the nearer is
taken, and the greater one if both are equally near.
-/

namespace StackCode

/-- The number `significand * 10 ^ exponent`. -/
structure Decimal where
  significand : Nat
  exponent : Int
deriving DecidableEq, Repr

namespace Decimal

/-- The digits of the significand, most significant first. -/
def digits (d : Decimal) : List Char := Nat.toDigits 10 d.significand

/-- The power of ten at the leading digit. -/
def leadingExponent (d : Decimal) : Int := d.exponent + Int.ofNat d.digits.length - 1

/-- Moves trailing zeros of the significand into the exponent; `steps` bounds how many. -/
def stripZeros : Nat → Decimal → Decimal
  | 0, d => d
  | steps + 1, d =>
    if d.significand ≠ 0 ∧ d.significand % 10 = 0 then
      stripZeros steps ⟨d.significand / 10, d.exponent + 1⟩
    else d

/-- The reals that round to one double, and the double itself, as numerators over `den`. -/
structure Interval where
  low : Nat
  centre : Nat
  high : Nat
  den : Nat
  /-- Whether the two ends belong to the interval. -/
  closed : Bool

/-- The interval of reals that round to `significand * 2 ^ exponent`. The lower end is nearer where
the spacing of doubles changes, at a power of two. -/
def Interval.around (significand : Nat) (exponent : Int) : Interval :=
  let below := if significand = Binary64.hiddenBit ∧ -1074 < exponent then 1 else 2
  let scale := Nat.pow 2 (exponent - 2).toNat
  { low := (4 * significand - below) * scale
    centre := 4 * significand * scale
    high := (4 * significand + 2) * scale
    den := Nat.pow 2 (2 - exponent).toNat
    closed := significand % 2 = 0 }

/-- Whether `num / den` lies in the interval. -/
def Interval.contains (range : Interval) (num den : Nat) : Bool :=
  let low := range.low * den
  let high := range.high * den
  let point := num * range.den
  if range.closed then low ≤ point && point ≤ high else low < point && point < high

/-- The power of ten at the leading digit of `num / den`, for positive numbers. -/
def floorLog10 (num den : Nat) : Int :=
  if den ≤ num then Int.ofNat (Binary64.digitCount (num / den)) - 1
  else
    let k := Binary64.digitCount (den / num)
    if den ≤ num * Nat.pow 10 (k - 1) then 1 - Int.ofNat k else -Int.ofNat k

/-- The best multiple of `10 ^ exponent` in the interval, if a neighbour of its centre is in it. -/
def onGrid (range : Interval) (exponent : Int) : Option Decimal :=
  let up := Nat.pow 10 exponent.toNat
  let down := Nat.pow 10 (-exponent).toNat
  let num := range.centre * down
  let den := range.den * up
  let floor := num / den
  let below := range.contains (floor * up) down
  let above := range.contains ((floor + 1) * up) down
  if below && above then
    if 2 * (num % den) < den then some ⟨floor, exponent⟩ else some ⟨floor + 1, exponent⟩
  else if below then some ⟨floor, exponent⟩
  else if above then some ⟨floor + 1, exponent⟩
  else none

/-- The first hit on the grids of growing precision, from the grid of `10 ^ exponent` downwards. -/
def search (range : Interval) : Nat → Int → Decimal
  | 0, exponent =>
    ⟨range.centre * Nat.pow 10 (-exponent).toNat / (range.den * Nat.pow 10 exponent.toNat),
      exponent⟩
  | steps + 1, exponent => (onGrid range exponent).getD (search range steps (exponent - 1))

/-- The decimal with the fewest digits that rounds to `significand * 2 ^ exponent`. Seventeen digits
always suffice. -/
def shortest (significand : Nat) (exponent : Int) : Decimal :=
  if significand = 0 then ⟨0, 0⟩
  else
    let range := Interval.around significand exponent
    stripZeros 18 (search range 17 (floorLog10 range.centre range.den))

end Decimal
end StackCode
