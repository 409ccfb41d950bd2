/-!
# Numbers and columns in text

Hexadecimal numerals, and padding to a column width. A width counts characters; text that is wider
is left as it is.
-/

namespace StackCode
namespace Text

/-- Pads on the left, so that the text ends at the column. -/
def padLeft (fill : Char) (width : Nat) (text : String) : String :=
  String.ofList (List.replicate (width - text.length) fill) ++ text

/-- Pads on the right with spaces, so that what follows starts at the column. -/
def padRight (width : Nat) (text : String) : String :=
  text ++ String.ofList (List.replicate (width - text.length) ' ')

def hexDigits (n : Nat) : String := String.ofList (Nat.toDigits 16 n)

/-- A number in hexadecimal after `0x`. -/
def hex (n : Nat) : String := "0x" ++ hexDigits n

/-- A byte as two hexadecimal digits after `0x`. -/
def hexByte (b : UInt8) : String := "0x" ++ padLeft '0' 2 (hexDigits b.toNat)

/-- Items in square brackets, with a comma and a space between them. -/
def bracketed (items : List String) : String := "[" ++ ", ".intercalate items ++ "]"

end Text
end StackCode
