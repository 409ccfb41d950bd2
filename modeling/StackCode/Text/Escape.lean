import StackCode.Text.Numeral
import StackCode.Text.Visible

/-!
# Escaped characters

A character is escaped by a backslash and a letter where it has a short name, by a backslash alone
where it is a backslash or the quote in use, and by its code point in braces where it does not show.
Every other character stands for itself. The escaped form of a character has no line break.
-/

namespace StackCode
namespace Escape

/-- Which of the two quotes is escaped. -/
structure Quotes where
  single : Bool
  double : Bool
deriving DecidableEq, Repr

/-- A lone character stands between single quotes, so only that quote is escaped. -/
def aroundCharacter : Quotes := ⟨true, false⟩

/-- In text both quotes are escaped. -/
def inText : Quotes := ⟨true, true⟩

/-- A character by its code point. -/
def byCode (c : Char) : String := "\\u\x7b" ++ Text.hexDigits c.toNat ++ "\x7d"

/-- A character, escaped where it has to be. -/
def escape (quotes : Quotes) (c : Char) : String :=
  if c = '\x00' then "\\0"
  else if c = '\t' then "\\t"
  else if c = '\r' then "\\r"
  else if c = '\n' then "\\n"
  else if c = '\\' || (c = '\x27' && quotes.single) || (c = '\x22' && quotes.double) then
    String.ofList ['\\', c]
  else if Visible.shows c then String.singleton c
  else byCode c

/-- A character between single quotes. -/
def character (c : Char) : String := "'" ++ escape aroundCharacter c ++ "'"

/-- Text between double quotes. -/
def text (s : String) : String := "\"" ++ String.join (s.toList.map (escape inText)) ++ "\""

end Escape
end StackCode
