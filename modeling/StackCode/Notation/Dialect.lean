import StackCode.Notation.Scan

/-!
# Dialects of data notation

Attributes in front of a datum enable abbreviations; together they choose the dialect that the datum
is written in.
-/

namespace StackCode

/-- Which abbreviations a text uses. -/
structure Dialect where
  /-- Whether a wrapped single value stands without its parentheses. -/
  bareWrappers : Bool
  /-- Whether an optional value that is there stands without the word for it. -/
  bareOptions : Bool
  /-- Whether a wrapped single value in a variant stands without its own parentheses. -/
  bareVariants : Bool
deriving DecidableEq, Repr

namespace Dialect

/-- The dialect without abbreviations. -/
def standard : Dialect := ⟨false, false, false⟩

/-- The dialect with one more abbreviation, by its name. -/
def enable (d : Dialect) : String → Option Dialect
  | "unwrap_newtypes" => some { d with bareWrappers := true }
  | "implicit_some" => some { d with bareOptions := true }
  | "unwrap_variant_newtypes" => some { d with bareVariants := true }
  | _ => none

/-- Marks and spellings one behind the other, with a gap behind each. -/
def spaced : List String → Scan Unit
  | [] => return
  | piece :: others => do
    Scan.spelling piece
    Scan.gap
    spaced others

/-- The names of abbreviations, with a comma between them and perhaps one behind the last; `steps`
bounds the names. -/
def names : Nat → Scan (List String)
  | 0 => failure
  | steps + 1 => do
    let first ← Scan.word
    if ← Scan.comma? then
      if (← Scan.next?).any Scan.inWord then return first :: (← names steps)
    return [first]

/-- The dialect that the attributes in front of a datum choose; `steps` bounds the attributes and
the names in each. -/
def ofAttributes : Nat → Dialect → Scan Dialect
  | 0, _ => failure
  | steps + 1, d => do
    if (← Scan.next?) = some '#' then
      spaced ["#", "!", "[", "enable", "("]
      let names ← names steps
      spaced [")", "]"]
      ofAttributes steps (← (names.foldlM enable d : Option Dialect))
    else return d

end Dialect
end StackCode
