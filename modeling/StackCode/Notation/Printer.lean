import StackCode.Binary64.Layout
import StackCode.Notation.Datum
import StackCode.Text.Escape

/-!
# Printing data

A datum is printed with one field, entry or list item to a line, four blanks further in than what
holds it, and a comma behind each. A tuple stays on the line. A list or map without items is a pair
of brackets. Reals are positional.
-/

namespace StackCode
namespace Datum

def newLine (depth : Nat) : String := "\n" ++ String.ofList (List.replicate (4 * depth) ' ')

/-- Lines inside brackets. -/
def block (opening closing : String) (depth : Nat) (lines : List String) : String :=
  if lines.isEmpty then opening ++ closing
  else
    opening ++ String.join (lines.map fun line => newLine (depth + 1) ++ line ++ ",") ++
      newLine depth ++ closing

/-- A character as it is, except for the quote and the backslash. -/
def quotedCharacter (c : Char) : String :=
  if c = '\\' || c = '\x27' then String.ofList ['\x27', '\\', c, '\x27']
  else String.ofList ['\x27', c, '\x27']

mutual

/-- The text of a datum at a depth. -/
def print (depth : Nat) : Datum → String
  | .word spelling => spelling
  | .natural value => toString value
  | .integer value => toString value
  | .real value => RealLayout.positional.text value
  | .text value => Escape.text value
  | .character value => quotedCharacter value
  | .tuple name items => name.getD "" ++ "(" ++ ", ".intercalate (printItems depth items) ++ ")"
  | .record name fields => name.getD "" ++ block "(" ")" depth (printFields (depth + 1) fields)
  | .list items => block "[" "]" depth (printItems (depth + 1) items)
  | .map entries => block "\x7b" "\x7d" depth (printEntries (depth + 1) entries)

/-- The texts of the items of a tuple or list. -/
def printItems (depth : Nat) : List Datum → List String
  | [] => []
  | d :: rest => print depth d :: printItems depth rest

/-- The texts of the fields of a record. -/
def printFields (depth : Nat) : List (String × Datum) → List String
  | [] => []
  | (name, d) :: rest => (name ++ ": " ++ print depth d) :: printFields depth rest

/-- The texts of the entries of a map. -/
def printEntries (depth : Nat) : List (Datum × Datum) → List String
  | [] => []
  | (key, d) :: rest => (print depth key ++ ": " ++ print depth d) :: printEntries depth rest

end

def render (d : Datum) : String := print 0 d

end Datum
end StackCode
