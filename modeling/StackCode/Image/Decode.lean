import StackCode.Bytes.Cursor
import StackCode.Image.CodeTree
import StackCode.Settings

/-!
# Reading code images

A code image is the record of the root function. A record is, in this order: the particles, the
globals, the number of operands, the number of locals, the constant pool, the name, the path and
line of the source, the line map, and the code. A function in a pool is stored as its record, in
place.

The reader goes down at most as many levels of nesting as the settings allow; it recurses on the
number of levels that are left. What it reads is a tree of code, which is then registered in a new
program.
-/

namespace StackCode
namespace Read

/-- A list of at most 255 names, each at most 255 bytes long. -/
def nameList : Read NameList := do
  match NameList.ofList (← shortTable "string list" 1 shortText) with
  | .ok list => return list
  | .error e => throw e

/-- A captured variable. -/
def capturedVariable : Read Variable := do
  let start ← offset
  let tag ← byte
  match VariableKind.ofTag? tag with
  | none => corrupt start (.invalidVariableKind tag)
  | some kind => return ⟨kind, ← byte⟩

/-- An operand of a given shape. -/
def operand : OperandShape → Read Operand
  | .none => return .none
  | .index => return .index (← word32)
  | .captures => return .captures (← shortTable "free variable" 2 capturedVariable)
  | .names => return .names (← nameList)
  | .record => do
    let name ← shortText
    return .record name (← nameList)
  | .field => return .field (← shortText)

/-- An instruction: the code of the operation, then an operand of the shape that it takes. -/
def instruction : Read Instruction := do
  let start ← offset
  let code ← byte
  match Opcode.ofCode? code with
  | none => throw (.invalidOpcode start code)
  | some opcode =>
    match Instruction.make opcode (← operand opcode.shape) with
    | .ok i => return i
    | .error e => throw e

/-- A record of a line map: the instruction, whether the line changes, and the new line or path. -/
def lineRecord : Read (UInt32 × LineChange) := do
  let start ← word32
  if ← boolean then return (start, .line (← word16))
  else return (start, .path (← text))

/-- An entry of a constant pool, with a given reader for nested functions. -/
def poolEntry (nested : Read CodeTree) : Read PoolEntry := do
  let start ← offset
  let tag ← byte
  match Kind.ofTag? tag with
  | none => corrupt start (.invalidKind tag)
  | some .nothing => return .value .nothing
  | some .integer => return .value (.integer (← int64))
  | some .real => return .value (.real (← real))
  | some .boolean => return .value (.boolean (← boolean))
  | some .character => return .value (.character (← character))
  | some .function => return .nested (← nested)
  | some .record => corrupt start .recordConstant

/-- The number of operands of a function, within the limit. -/
def operandCount (limit : UInt64) : Read UInt64 := do
  let start ← offset
  let count ← word64
  if limit < count then corrupt start (.tooManyOperands count)
  return count

/-- The record of a function, with a given reader for nested functions. -/
def record (settings : Settings) (nested : Read CodeTree) : Read CodeTree := do
  let particles ← nameList
  let globals ← table "global" 8 text
  let operandCount ← operandCount settings.maxOperands
  let localCount ← word32
  let pool ← table "constant" 1 (poolEntry nested)
  let name ← text
  let path ← text
  let line ← word16
  let lines ← table "line map entry" 7 lineRecord
  let code ← table "instruction" 1 instruction
  return {
    name, origin := ⟨path, line⟩, particles, globals, operandCount, localCount, pool
    lines := ⟨lines⟩, code }

/-- The record of a function with at most `levels` levels of functions, itself included. -/
def codeTree (settings : Settings) : Nat → Read CodeTree
  | 0 => do corrupt (← offset) (.nestingTooDeep settings.maxDepth.toNat)
  | levels + 1 => record settings (codeTree settings levels)

end Read

namespace Program

/-- The program whose image starts the bytes, and the cursor behind the image. -/
def decodeStart (settings : Settings) (bytes : List UInt8) : Except Error (Program × Cursor) :=
  let levels := settings.maxDepth.toNat + 1
  match Read.codeTree settings levels (Cursor.start settings.order bytes) with
  | .error e _ => .error e
  | .ok tree behind => do
    let p ← Program.ofTree tree
    return (p, behind)

/-- The program whose image the bytes are. Whether bytes may follow the image is a setting. -/
def decode (settings : Settings) (bytes : List UInt8) : Except Error Program := do
  let (p, behind) ← decodeStart settings bytes
  if settings.rejectTrailing && !behind.isEmpty then
    throw (.corrupt behind.offset (.trailingBytes behind.remaining))
  return p

end Program
end StackCode
