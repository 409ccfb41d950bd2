import StackCode.Binary64.Round
import StackCode.Notation.Scan

/-!
# Numbers of data notation

A natural number is written in base ten, or in base sixteen, two or eight behind `0x`, `0b` or
`0o`; underscores may stand behind the first digit. An integer may have a sign. A real has a whole
part, a fraction, or both, and may have a power of ten; it has no underscores. The infinities and
the NaN are words.
-/

namespace StackCode
namespace Number

/-- Whether a character can stand in the digits of a natural number of some base. -/
def inDigits (c : Char) : Bool := (Scan.hexValue c).isSome || c = '_'

/-- Whether a character can stand in a real. An underscore is taken along, and then refused. -/
def inReal (c : Char) : Bool :=
  c.isDigit || c = 'e' || c = 'E' || c = '.' || c = '+' || c = '-' || c = '_'

/-- The number that digits stand for in a base, behind a number that has been read. -/
def ofDigits (base : Nat) (seen : Nat) : List Char → Option Nat
  | [] => some seen
  | c :: rest =>
    if c = '_' then ofDigits base seen rest
    else
      match Scan.hexValue c with
      | some value => if value < base then ofDigits base (seen * base + value) rest else none
      | none => none

/-- The number that digits stand for in a base; they must not start with an underscore. -/
def inBase (base : Nat) (digits : List Char) : Option Nat :=
  match digits with
  | [] => none
  | c :: _ => if c = '_' then none else ofDigits base 0 digits

/-- The base of a natural number, by what is in front of its digits. -/
def base : Scan Nat := fun
  | '0' :: 'x' :: rest => some (16, rest)
  | '0' :: 'b' :: rest => some (2, rest)
  | '0' :: 'o' :: rest => some (8, rest)
  | cs => some (10, cs)

/-- A natural number of any size. -/
def magnitude : Scan Nat := do
  let base ← base
  inBase base (← Scan.run inDigits)

/-- A natural number of at most `bits` bits. -/
def natural (bits : Nat) : Scan Nat := do
  let n ← magnitude
  if n < Nat.pow 2 bits then return n else failure

/-- A sign in front, if there is one, and what follows it. -/
def splitSign : List Char → Bool × List Char
  | '+' :: rest => (false, rest)
  | '-' :: rest => (true, rest)
  | rest => (false, rest)

/-- An integer that fits a signed word of `bits` bits. -/
def integer (bits : Nat) : Scan Int := do
  let (negative, digits) := splitSign (← get)
  set digits
  let n ← magnitude
  if negative then
    if n ≤ Nat.pow 2 (bits - 1) then return -Int.ofNat n else failure
  else if n < Nat.pow 2 (bits - 1) then return Int.ofNat n
  else failure

/-- The number that decimal digits stand for; nothing if some character is no digit. -/
def decimal? (digits : List Char) : Option Nat :=
  if digits.all Char.isDigit then ofDigits 10 0 digits else none

/-- The power of ten behind the letter `e`, which must be there if the letter is. -/
def exponent? : List Char → Option Int
  | [] => some 0
  | _ :: rest => do
    let (negative, digits) := splitSign rest
    if digits.isEmpty then none
    let n ← decimal? digits
    return if negative then -Int.ofNat n else Int.ofNat n

/-- Whether a character stands in front of the power of ten. -/
def marksExponent (c : Char) : Bool := c = 'e' || c = 'E'

/-- The double nearest to a decimal number with an optional fraction and power of ten. -/
def finite? (negative : Bool) (cs : List Char) : Option Binary64 := do
  let mantissa := cs.takeWhile fun c => !marksExponent c
  let exponent ← exponent? (cs.dropWhile fun c => !marksExponent c)
  let whole := mantissa.takeWhile (· ≠ '.')
  let fraction := (mantissa.dropWhile (· ≠ '.')).drop 1
  if whole.isEmpty && fraction.isEmpty then none
  let significand ← decimal? (whole ++ fraction)
  return Binary64.ofDecimal negative significand (exponent - Int.ofNat fraction.length)

/-- The words for reals that are not finite, which may have a sign. -/
def wordsForReals : List String := ["inf", "+inf", "-inf", "NaN", "+NaN", "-NaN"]

/-- A real that is not finite, by its word. -/
def ofWord (letters : String) : Binary64 :=
  match splitSign letters.toList with
  | (negative, 'i' :: _) => Binary64.infinity negative
  | (negative, _) => Binary64.quietNaN negative

/-- A real. -/
def real : Scan Binary64 := do
  match ← Scan.firstKeyword? wordsForReals with
  | some letters => return ofWord letters
  | none =>
    let (negative, cs) := splitSign (← Scan.run inReal)
    finite? negative cs

/-- Whether a number that starts a text is longer as a real than as an integer. -/
def isFractional (cs : List Char) : Bool :=
  let body := (splitSign cs).2
  decide ((body.takeWhile inDigits).length < (body.takeWhile inReal).length)

/-- A number of any kind: an integer that fits a word of 64 bits, which is signed if the number has
a sign, or else a real. -/
def anyKind : Scan Unit := do
  let cs ← get
  let isSigned := cs.head? = some '+' || cs.head? = some '-'
  let whole : Scan Unit := if isSigned then discard (integer 64) else discard (natural 64)
  if isFractional cs then discard real else whole <|> discard real

end Number
end StackCode
