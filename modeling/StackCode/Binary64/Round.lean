import StackCode.Binary64.Basic

/-!
# Rounding to double precision

`Binary64.ofRatio` gives the double nearest to a quotient of natural numbers, a tie going to the
even significand; `Binary64.ofDecimal` does so for a decimal significand and exponent.
-/

namespace StackCode
namespace Binary64

/-- The quotient of two numbers, rounded to nearest, a tie going to the even neighbour. -/
def roundedQuotient (num den : Nat) : Nat :=
  let quotient := num / den
  let twice := 2 * (num % den)
  if twice < den then quotient
  else if twice = den then quotient + quotient % 2
  else quotient + 1

/-- The greatest `k` with `2 ^ k ≤ num / den`, for positive numbers. -/
def floorLog2 (num den : Nat) : Int :=
  if den ≤ num then Int.ofNat (num / den).log2
  else
    let k := (den / num).log2
    if den ≤ num * Nat.pow 2 k then -Int.ofNat k else -Int.ofNat (k + 1)

/-- The double nearest to `num / den`, with `den` positive; past the greatest double it is
infinite. -/
def ofRatio (negative : Bool) (num den : Nat) : Binary64 :=
  if num = 0 then withSign negative 0
  else
    let exponent := max (-1074) (floorLog2 num den - 52)
    let significand :=
      if 0 ≤ exponent then roundedQuotient num (den * Nat.pow 2 exponent.toNat)
      else roundedQuotient (num * Nat.pow 2 (-exponent).toNat) den
    let lower := (exponent + 1074).toNat * hiddenBit + significand
    if specialExponent * hiddenBit ≤ lower then infinity negative else withSign negative lower

/-- The number of decimal digits of a number; zero has one. -/
def digitCount (n : Nat) : Nat := (Nat.toDigits 10 n).length

/-- The double nearest to `significand * 10 ^ exponent`. Numbers beyond every double, or below half
the least one, are settled before any power is computed. -/
def ofDecimal (negative : Bool) (significand : Nat) (exponent : Int) : Binary64 :=
  let magnitude := exponent + Int.ofNat (digitCount significand)
  if significand = 0 then withSign negative 0
  else if 400 < magnitude then infinity negative
  else if magnitude < -400 then withSign negative 0
  else if 0 ≤ exponent then ofRatio negative (significand * Nat.pow 10 exponent.toNat) 1
  else ofRatio negative significand (Nat.pow 10 (-exponent).toNat)

end Binary64
end StackCode
