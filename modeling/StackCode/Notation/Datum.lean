import StackCode.Binary64.Basic

/-!
# Data

A datum is a piece of structured data: a word, a number, quoted text, a quoted character, a tuple
or a record with or without a name, a list, or a map. Values of the library's types are turned into
data to be printed, and data that have been read are turned into such values.
-/

namespace StackCode

/-- A piece of structured data. -/
inductive Datum where
  | word (spelling : String)
  | natural (value : Nat)
  | integer (value : Int)
  | real (value : Binary64)
  | text (value : String)
  | character (value : Char)
  | tuple (name : Option String) (items : List Datum)
  | record (name : Option String) (fields : List (String × Datum))
  | list (items : List Datum)
  | map (entries : List (Datum × Datum))

namespace Datum

def variant (name : String) (held : Datum) : Datum := .tuple (some name) [held]

def wrapped (held : Datum) : Datum := .tuple none [held]

/-- An optional value. -/
def ofOption (held : Option Datum) : Datum :=
  match held with
  | none => .word "None"
  | some d => variant "Some" d

def ofBool (b : Bool) : Datum := .word (if b then "true" else "false")

/-- The fields of a record without a name. -/
def fields? : Datum → Option (List (String × Datum))
  | .record none fields => some fields
  | _ => none

/-- The field of a name, if there is one; two such fields are refused. -/
def optionalField (fields : List (String × Datum)) (name : String) : Option (Option Datum) :=
  match fields.filter (·.1 = name) with
  | [] => some none
  | [field] => some (some field.2)
  | _ => none

/-- The one field of a name. -/
def field? (fields : List (String × Datum)) (name : String) : Option Datum :=
  (optionalField fields name).join

/-- The value that a wrapper holds. -/
def held? : Datum → Option Datum
  | .tuple none [held] => some held
  | _ => none

/-- The items of a list. -/
def items? : Datum → Option (List Datum)
  | .list items => some items
  | _ => none

/-- The entries of a map. -/
def entries? : Datum → Option (List (Datum × Datum))
  | .map entries => some entries
  | _ => none

/-- Quoted text. -/
def text? : Datum → Option String
  | .text value => some value
  | _ => none

def character? : Datum → Option Char
  | .character value => some value
  | _ => none

/-- A natural number. -/
def natural? : Datum → Option Nat
  | .natural value => some value
  | _ => none

def integer? : Datum → Option Int
  | .integer value => some value
  | _ => none

def real? : Datum → Option Binary64
  | .real value => some value
  | _ => none

/-- A truth value. -/
def bool? : Datum → Option Bool
  | .word "true" => some true
  | .word "false" => some false
  | _ => none

/-- An optional value. -/
def option? : Datum → Option (Option Datum)
  | .word "None" => some none
  | .tuple (some "Some") [held] => some (some held)
  | _ => none

end Datum
end StackCode
