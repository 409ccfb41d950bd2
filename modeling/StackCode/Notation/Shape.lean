import StackCode.Notation.Datum
import StackCode.Notation.Reader

/-!
# Shapes of data

A shape is a reader for data of one form, such as a record with fields of given shapes. A record or
wrapper may have the name of its type in front; the fields of a record stand in any order, and
unknown fields mean nothing. The data that a shape reads do not show which abbreviations the text
has used: they have the form in which data are printed.
-/

namespace StackCode

/-- A reader for data of one form. -/
abbrev Shape := Reader Datum

namespace Shape

/-- A truth value. -/
def truth : Shape := do
  if ← Scan.spelling? "true" then return Datum.ofBool true
  Scan.spelling "false"
  return Datum.ofBool false

def natural (bits : Nat) : Shape := do return .natural (← Number.natural bits)

/-- An integer that fits a signed word of `bits` bits. -/
def integer (bits : Nat) : Shape := do return .integer (← Number.integer bits)

def real : Shape := do return .real (← Number.real)

def text : Shape := do return .text (← Scan.text)

def character : Shape := do return .character (← Scan.character)

def option (held : Shape) : Shape := do return Datum.ofOption (← Reader.option held)

def list (item : Shape) : Shape := do return .list (← Reader.items '[' ']' item)

/-- A map. -/
def map (key value : Shape) : Shape := do
  return .map (← Reader.items '\x7b' '\x7d' (Reader.entry key value))

/-- A tuple of two items; a comma may follow the second. -/
def pair (first second : Shape) : Shape := do
  Scan.mark '('
  let both ← Reader.deeper do
    Scan.gap
    let a ← Reader.deeper first
    if !(← Scan.comma?) then failure
    let b ← Reader.deeper second
    let _ ← Scan.comma?
    return [a, b]
  Scan.mark ')'
  return .tuple none both

/-- The name of a type, which may be left out. -/
def typeName (name : String) : Reader Unit := do
  if (← Scan.next?).any Scan.inWord then
    if (← Scan.word) ≠ name then failure
  Scan.gap

/-- A wrapper for a single value. -/
def wrapper (name : String) (held : Shape) : Shape := do
  let scope ← read
  if scope.dialect.bareWrappers || scope.bare then
    return Datum.wrapped (← Reader.deeper held)
  typeName name
  return Datum.wrapped (← Reader.parenthesized held)

/-- Fields of given names and shapes, in parentheses; unknown fields are left out. -/
def fields (known : List (String × Shape)) : Reader (List (String × Datum)) := do
  let found ← Reader.items '(' ')' <| Reader.field fun name => do
    match known.lookup name with
    | some shape => return some (name, ← shape)
    | none => do
      Reader.skip
      return none
  return found.filterMap id

/-- A record. -/
def record (name : String) (known : List (String × Shape)) : Shape := do
  typeName name
  return .record none (← fields known)

/-- One of the forms that a choice allows. -/
structure Variant where
  name : String
  /-- The shape of the variant, whose name has been taken. -/
  content : Shape

namespace Variant

def constant (name : String) : Variant := ⟨name, return .word name⟩

/-- A variant that holds one value. -/
def holding (name : String) (held : Shape) : Variant where
  name
  content := do
    Scan.gap
    return Datum.variant name (← Reader.parenthesized (Reader.inVariant held))

/-- A variant that has fields. -/
def fielded (name : String) (known : List (String × Shape)) : Variant where
  name
  content := do
    Scan.gap
    return .record (some name) (← fields known)

end Variant

/-- One of some variants. -/
def choice (variants : List Variant) : Shape := Reader.deeper do
  Scan.gap
  let name ← Scan.word
  match variants.find? (·.name = name) with
  | some variant => variant.content
  | none => failure

end Shape
end StackCode
