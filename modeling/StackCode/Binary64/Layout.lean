import StackCode.Binary64.Shortest

/-!
# The text of a real number

A real is written with the shortest digits that read back. Positional text always has a digit on
both sides of the point; the other form is one digit, a point with the rest if there is any, and the
power of ten after `e`. A layout says for which powers of ten at the leading digit the positional
form is used.
-/

namespace StackCode

/-- Which numbers are written positionally, by the power of ten at the leading digit. -/
structure RealLayout where
  least : Option Int
  greatest : Option Int
deriving DecidableEq, Repr

namespace RealLayout

/-- In listings and messages, numbers from `1e-4` up to but not including `1e16` are positional. -/
def display : RealLayout := ⟨some (-4), some 15⟩

/-- In data notation every number is positional. -/
def positional : RealLayout := ⟨none, none⟩

/-- Whether a leading power of ten lies in the layout's positional range. -/
def covers (layout : RealLayout) (leading : Int) : Bool :=
  layout.least.all (· ≤ leading) && layout.greatest.all (leading ≤ ·)

/-- Positional text of a decimal, with at least one digit on both sides of the point. -/
def positionalText (d : Decimal) : String :=
  let digits := d.digits
  if 0 ≤ d.exponent then
    String.ofList (digits ++ List.replicate d.exponent.toNat '0') ++ ".0"
  else
    let places := (-d.exponent).toNat
    let padded := List.replicate (places + 1 - digits.length) '0' ++ digits
    let whole := padded.length - places
    String.ofList (padded.take whole) ++ "." ++ String.ofList (padded.drop whole)

/-- Text of a decimal with an explicit power of ten. -/
def scientificText (d : Decimal) : String :=
  let mantissa :=
    match d.digits with
    | [] => ""
    | [digit] => String.singleton digit
    | digit :: rest => String.singleton digit ++ "." ++ String.ofList rest
  mantissa ++ "e" ++ toString d.leadingExponent

/-- The text of a magnitude. -/
def magnitudeText (layout : RealLayout) (significand : Nat) (exponent : Int) : String :=
  let d := Decimal.shortest significand exponent
  if significand = 0 || layout.covers d.leadingExponent then positionalText d else scientificText d

/-- The text of a real. A NaN is written without its sign, a zero with it. -/
def text (layout : RealLayout) (x : Binary64) : String :=
  let sign := if x.isNegative then "-" else ""
  match x.magnitude with
  | .nan => "NaN"
  | .infinite => sign ++ "inf"
  | .finite significand exponent => sign ++ layout.magnitudeText significand exponent

end RealLayout
end StackCode
