import StackCode.Error
import StackCode.Notation.Printer
import StackCode.Notation.Shape
import StackCode.Settings

/-!
# Settings in data notation

The settings of a reader as a record whose fields can be left out: a field that is missing has its
standard value.
-/

namespace StackCode

namespace ByteOrder

/-- The word for a byte order. -/
def name : ByteOrder → String
  | little => "Little"
  | big => "Big"

def datumShape : Shape := .choice [.constant little.name, .constant big.name]

def ofDatum? : Datum → Option ByteOrder
  | .word spelling =>
    if spelling = little.name then some little
    else if spelling = big.name then some big
    else none
  | _ => none

end ByteOrder

namespace Settings

def datumShape : Shape :=
  .record "ParserConfig"
    [("endian", ByteOrder.datumShape),
      ("max_depth", .natural 64),
      ("max_stack_operands", .natural 64),
      ("reject_trailing_bytes", .truth)]

/-- The value of a field, or a standard value if there is no such field. -/
def fieldOr {α : Type} (fields : List (String × Datum)) (name : String) (standard : α)
    (read : Datum → Option α) : Option α := do
  match ← Datum.optionalField fields name with
  | none => return standard
  | some d => read d

def toDatum (s : Settings) : Datum :=
  .record none
    [("endian", .word s.order.name),
      ("max_depth", .natural s.maxDepth.toNat),
      ("max_stack_operands", .natural s.maxOperands.toNat),
      ("reject_trailing_bytes", Datum.ofBool s.rejectTrailing)]

def ofDatum? (d : Datum) : Option Settings := do
  let fields ← d.fields?
  let word := fun (d : Datum) => d.natural?.map UInt64.ofNat
  return {
    order := ← fieldOr fields "endian" standard.order ByteOrder.ofDatum?
    maxDepth := ← fieldOr fields "max_depth" standard.maxDepth word
    maxOperands := ← fieldOr fields "max_stack_operands" standard.maxOperands word
    rejectTrailing := ← fieldOr fields "reject_trailing_bytes" standard.rejectTrailing Datum.bool? }

def render (s : Settings) : String := s.toDatum.render

/-- The settings that a text stands for. -/
def read (text : String) : Except Error Settings :=
  match (Reader.readText datumShape text).bind ofDatum? with
  | some s => .ok s
  | none => .error .invalidSettings

end Settings
end StackCode
