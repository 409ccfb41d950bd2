import StackCode.Notation.Printer
import StackCode.Notation.Shape
import StackCode.Program.Basic

/-!
# Programs in data notation

A whole program as a record, with its descriptors, functions, root and index. Operations and kinds
of variable are numbers. The index has no order of its own and is printed in the order of its
lines.

Each type has a shape, by which its data are read, and is turned into data and back. What is read is
taken as it stands: name lists of any length, operands of any shape, and references that may dangle.
-/

namespace StackCode

namespace Shape

def size : Shape := natural 64

/-- A wrapped position, by the name of its type. -/
def reference (typeName : String) : Shape := wrapper typeName size

end Shape

namespace Datum

def texts? (d : Datum) : Option (List String) := do (← d.items?).mapM text?

def ofReference (index : Nat) : Datum := wrapped (.natural index)

def reference? (d : Datum) : Option Nat := do (← d.held?).natural?

/-- A map from texts, whose values are read one by one. -/
def nameMap? {α : Type} (value : Datum → Option α) (d : Datum) : Option (NameMap α) := do
  let entries ← (← d.entries?).mapM fun (key, held) => do return (← key.text?, ← value held)
  return NameMap.ofList entries

end Datum

namespace NameList

def datumShape : Shape := .wrapper "StringList" (.list .text)

def toDatum (list : NameList) : Datum := Datum.wrapped (.list (list.names.map .text))

def ofDatum? (d : Datum) : Option NameList := do return ⟨← (← d.held?).texts?⟩

end NameList

namespace Constant

def datumShape : Shape :=
  .choice
    [.constant "None",
      .holding "Integer" (.integer 64),
      .holding "Real" .real,
      .holding "Boolean" .truth,
      .holding "Character" .character,
      .holding "Function" (.reference "FunctionId"),
      .holding "Structure" (.reference "StructureId")]

def toDatum : Constant → Datum
  | nothing => .word "None"
  | integer value => Datum.variant "Integer" (.integer value.toInt)
  | real value => Datum.variant "Real" (.real value)
  | boolean value => Datum.variant "Boolean" (Datum.ofBool value)
  | character value => Datum.variant "Character" (.character value)
  | function id => Datum.variant "Function" (Datum.ofReference id.index)
  | record id => Datum.variant "Structure" (Datum.ofReference id.index)

def ofDatum? : Datum → Option Constant
  | .word "None" => some nothing
  | .tuple (some name) [held] =>
    match name with
    | "Integer" => held.integer?.map fun value => integer (Int64.ofInt value)
    | "Real" => held.real?.map real
    | "Boolean" => held.bool?.map boolean
    | "Character" => held.character?.map character
    | "Function" => held.reference?.map fun index => function ⟨index⟩
    | "Structure" => held.reference?.map fun index => record ⟨index⟩
    | _ => none
  | _ => none

end Constant

namespace Location

def datumShape : Shape := .record "Origin" [("path", .text), ("line", .natural 16)]

def toDatum (l : Location) : Datum :=
  .record none [("path", .text l.path), ("line", .natural l.line.toNat)]

def ofDatum? (d : Datum) : Option Location := do
  let fields ← d.fields?
  let path ← (← Datum.field? fields "path").text?
  let line ← (← Datum.field? fields "line").natural?
  return ⟨path, UInt16.ofNat line⟩

end Location

namespace LineMap

def datumShape : Shape :=
  .wrapper "LineMap" <| .list <| .pair (.natural 32) <|
    .choice [.holding "Line" (.natural 16), .holding "Path" .text]

/-- A record of a line map as a datum. -/
def recordToDatum (record : UInt32 × LineChange) : Datum :=
  let change :=
    match record.2 with
    | .line number => Datum.variant "Line" (.natural number.toNat)
    | .path name => Datum.variant "Path" (.text name)
  .tuple none [.natural record.1.toNat, change]

def toDatum (map : LineMap) : Datum := Datum.wrapped (.list (map.records.map recordToDatum))

/-- The change that a datum stands for. -/
def changeOfDatum? : Datum → Option LineChange
  | .tuple (some name) [held] =>
    match name with
    | "Line" => held.natural?.map fun number => .line (UInt16.ofNat number)
    | "Path" => held.text?.map .path
    | _ => none
  | _ => none

/-- The record of a line map that a datum stands for. -/
def recordOfDatum? : Datum → Option (UInt32 × LineChange)
  | .tuple none [start, change] => do
    return (UInt32.ofNat (← start.natural?), ← changeOfDatum? change)
  | _ => none

def ofDatum? (d : Datum) : Option LineMap := do
  return ⟨← (← (← d.held?).items?).mapM recordOfDatum?⟩

end LineMap

namespace Variable

def datumShape : Shape := .record "FreeVariable" [("kind", .natural 8), ("index", .natural 8)]

def toDatum (v : Variable) : Datum :=
  .record none [("kind", .natural v.kind.tag.toNat), ("index", .natural v.index.toNat)]

def ofDatum? (d : Datum) : Option Variable := do
  let fields ← d.fields?
  let tag ← (← Datum.field? fields "kind").natural?
  let kind ← VariableKind.ofTag? (UInt8.ofNat tag)
  let index ← (← Datum.field? fields "index").natural?
  return ⟨kind, UInt8.ofNat index⟩

end Variable

namespace Operand

def datumShape : Shape :=
  .choice
    [.constant "None",
      .holding "Index" (.natural 32),
      .holding "FreeVariables" (.list Variable.datumShape),
      .holding "Josa" NameList.datumShape,
      .fielded "Structure" [("name", .text), ("fields", NameList.datumShape)],
      .holding "Field" .text]

def toDatum : Operand → Datum
  | none => .word "None"
  | index value => Datum.variant "Index" (.natural value.toNat)
  | captures list => Datum.variant "FreeVariables" (.list (list.map Variable.toDatum))
  | names list => Datum.variant "Josa" list.toDatum
  | record name fields =>
    .record (some "Structure") [("name", .text name), ("fields", fields.toDatum)]
  | field name => Datum.variant "Field" (.text name)

def ofDatum? : Datum → Option Operand
  | .word "None" => some none
  | .tuple (some name) [held] =>
    match name with
    | "Index" => held.natural?.map fun value => index (UInt32.ofNat value)
    | "FreeVariables" => do return captures (← (← held.items?).mapM Variable.ofDatum?)
    | "Josa" => (NameList.ofDatum? held).map names
    | "Field" => held.text?.map field
    | _ => .none
  | .record (some "Structure") fields => do
    let name ← (← Datum.field? fields "name").text?
    let list ← NameList.ofDatum? (← Datum.field? fields "fields")
    return record name list
  | _ => .none

end Operand

namespace Instruction

def datumShape : Shape :=
  .record "Instruction" [("opcode", .natural 8), ("operand", Operand.datumShape)]

def toDatum (i : Instruction) : Datum :=
  .record none [("opcode", .natural i.opcode.code.toNat), ("operand", i.operand.toDatum)]

/-- The instruction that a datum stands for; the operand may have any shape. -/
def ofDatum? (d : Datum) : Option Instruction := do
  let fields ← d.fields?
  let code ← (← Datum.field? fields "opcode").natural?
  let opcode ← Opcode.ofCode? (UInt8.ofNat code)
  let operand ← Operand.ofDatum? (← Datum.field? fields "operand")
  return ⟨opcode, operand⟩

end Instruction

namespace Descriptor

def datumShape : Shape :=
  .record "FunctionInfo"
    [("name", .text),
      ("origin", Location.datumShape),
      ("josa_list", NameList.datumShape),
      ("global_list", .list .text),
      ("stack_operand_count", .natural 64),
      ("local_variable_count", .natural 32),
      ("constant_list", .wrapper "ConstantList" (.list Constant.datumShape)),
      ("line_map", LineMap.datumShape),
      ("instruction_list", .wrapper "InstructionList" (.list Instruction.datumShape))]

def toDatum (d : Descriptor Constant) : Datum :=
  .record none
    [("name", .text d.name),
      ("origin", d.origin.toDatum),
      ("josa_list", d.particles.toDatum),
      ("global_list", .list (d.globals.map .text)),
      ("stack_operand_count", .natural d.operandCount.toNat),
      ("local_variable_count", .natural d.localCount.toNat),
      ("constant_list", Datum.wrapped (.list (d.pool.map Constant.toDatum))),
      ("line_map", d.lines.toDatum),
      ("instruction_list", Datum.wrapped (.list (d.code.map Instruction.toDatum)))]

def ofDatum? (d : Datum) : Option (Descriptor Constant) := do
  let fields ← d.fields?
  let pool ← (← Datum.field? fields "constant_list").held?
  let code ← (← Datum.field? fields "instruction_list").held?
  return {
    name := ← (← Datum.field? fields "name").text?
    origin := ← Location.ofDatum? (← Datum.field? fields "origin")
    particles := ← NameList.ofDatum? (← Datum.field? fields "josa_list")
    globals := ← (← Datum.field? fields "global_list").texts?
    operandCount := UInt64.ofNat (← (← Datum.field? fields "stack_operand_count").natural?)
    localCount := UInt32.ofNat (← (← Datum.field? fields "local_variable_count").natural?)
    pool := ← (← pool.items?).mapM Constant.ofDatum?
    lines := ← LineMap.ofDatum? (← Datum.field? fields "line_map")
    code := ← (← code.items?).mapM Instruction.ofDatum? }

end Descriptor

namespace Function

def datumShape : Shape :=
  .record "Function"
    [("info", .reference "FunctionInfoId"),
      ("josa_map", .wrapper "StringMap" (.map .text Constant.datumShape)),
      ("free_variables", .list Constant.datumShape)]

def toDatum (f : Function) : Datum :=
  let bindings := f.bindings.entries.map fun (name, value) => (Datum.text name, value.toDatum)
  .record none
    [("info", Datum.ofReference f.descriptor.index),
      ("josa_map", Datum.wrapped (.map bindings)),
      ("free_variables", .list (f.captures.map Constant.toDatum))]

def ofDatum? (d : Datum) : Option Function := do
  let fields ← d.fields?
  let id ← (← Datum.field? fields "info").reference?
  let bindings ← (← Datum.field? fields "josa_map").held?
  let captures ← (← Datum.field? fields "free_variables").items?
  return {
    descriptor := ⟨id⟩
    bindings := ← bindings.nameMap? Constant.ofDatum?
    captures := ← captures.mapM Constant.ofDatum? }

end Function

namespace Program

def datumShape : Shape :=
  .record "ByteFile"
    [("infos", .list Descriptor.datumShape),
      ("functions", .list Function.datumShape),
      ("root", .option (.reference "FunctionId")),
      ("names", .map .text (.reference "FunctionInfoId"))]

/-- The entries of an index as data, in the order of their lines. -/
def indexEntries (index : NameMap DescriptorId) : List (Datum × Datum) :=
  let entries := index.entries.map fun (name, id) => (Datum.text name, Datum.ofReference id.index)
  let line := fun (entry : Datum × Datum) =>
    entry.1.render ++ ": " ++ entry.2.render ++ ","
  entries.mergeSort fun a b => decide (line a ≤ line b)

def toDatum (p : Program) : Datum :=
  .record none
    [("infos", .list (p.descriptors.toList.map Descriptor.toDatum)),
      ("functions", .list (p.functions.toList.map Function.toDatum)),
      ("root", Datum.ofOption (p.root.map fun id => Datum.ofReference id.index)),
      ("names", .map (indexEntries p.index))]

/-- The root that a datum stands for. -/
def rootOfDatum? (d : Datum) : Option (Option FunctionId) := do
  match ← d.option? with
  | none => return none
  | some held => return some ⟨← held.reference?⟩

/-- The program that a datum stands for. A root that is missing is no root. -/
def ofDatum? (d : Datum) : Option Program := do
  let fields ← d.fields?
  let descriptors ← (← Datum.field? fields "infos").items?
  let functions ← (← Datum.field? fields "functions").items?
  let root ← Datum.optionalField fields "root"
  let id := fun (d : Datum) => d.reference?.map DescriptorId.mk
  return {
    descriptors := (← descriptors.mapM Descriptor.ofDatum?).toArray
    functions := (← functions.mapM Function.ofDatum?).toArray
    root := ← rootOfDatum? (root.getD (Datum.ofOption none))
    index := ← (← Datum.field? fields "names").nameMap? id }

def dump (p : Program) : String := p.toDatum.render

/-- The program that a text in data notation stands for. -/
def load? (text : String) : Option Program := do ofDatum? (← Reader.readText datumShape text)

end Program
end StackCode
