/-!
# Opcodes

The operations of the stack machine, with the shape of operand that each of them takes. The code of
an operation is the byte that stands for it in a code image.
-/

namespace StackCode

/-- The shapes an operand can have. -/
inductive OperandShape where
  | none
  | index
  | captures
  | names
  | record
  | field
deriving DecidableEq, Repr

/-- Where a closure finds the value of a captured variable: in a slot of the running frame, or among
the captures of the running closure. -/
inductive VariableKind where
  | slot
  | captured
deriving DecidableEq, Repr

/-- The operations of the machine. -/
inductive Opcode where
  /-- Push the constant at the operand's position in the pool. -/
  | push
  /-- Drop the top of the stack. -/
  | pop
  /-- Push the value of a local variable. -/
  | loadLocal
  /-- Pop the top of the stack into a local variable. -/
  | storeLocal
  /-- Push a captured variable of the running closure. -/
  | loadCaptured
  /-- Pop the top of the stack into a global. -/
  | storeGlobal
  /-- Push the value of a global. -/
  | loadGlobal
  /-- Call the function at the top of the stack, binding arguments by the operand's particles. -/
  | call
  /-- Declare a record type with the operand's name and fields. -/
  | defineRecord
  /-- Build a record from the values on the stack, one per field of the operand. -/
  | makeRecord
  /-- Replace the record at the top of the stack by one of its fields. -/
  | getField
  /-- Jump to an instruction. -/
  | jump
  /-- Pop a boolean, and jump if it is false. -/
  | popJumpIfFalse
  /-- Turn the function at the top of the stack into a closure over the operand's variables. -/
  | close
  | add
  | subtract
  | multiply
  | divide
  | modulo
  | equal
  | lessThan
  | greaterThan
  | negate
  | logicNot
  | logicAnd
  | logicOr
deriving DecidableEq, Repr

namespace VariableKind

/-- The byte that stands for the kind of variable in a code image. -/
def tag : VariableKind → UInt8
  | slot => 0
  | captured => 1

/-- The kind of variable with a given tag. -/
def ofTag? (b : UInt8) : Option VariableKind :=
  if b = 0 then some slot else if b = 1 then some captured else .none

/-- The word for the kind of variable in messages. -/
def name : VariableKind → String
  | slot => "Local"
  | captured => "Free"

/-- The word for the kind of variable in listings. -/
def label : VariableKind → String
  | slot => "local"
  | captured => "free"

@[simp] theorem ofTag?_tag (k : VariableKind) : ofTag? k.tag = some k := by
  cases k <;> decide

theorem ofTag?_eq_some_iff {b : UInt8} {k : VariableKind} : ofTag? b = some k ↔ b = k.tag := by
  refine ⟨fun h => ?_, fun h => h ▸ ofTag?_tag k⟩
  unfold ofTag? at h
  split at h
  · next hb => cases h; exact hb
  · split at h
    · next hb => cases h; exact hb
    · cases h

end VariableKind

namespace OperandShape

/-- The word for the shape. -/
def name : OperandShape → String
  | none => "None"
  | index => "Index"
  | captures => "FreeVariables"
  | names => "Josa"
  | record => "Structure"
  | field => "Field"

end OperandShape

namespace Opcode

/-- Every operation, in the order of the codes. -/
def all : List Opcode :=
  [push, pop, loadLocal, storeLocal, loadCaptured, storeGlobal, loadGlobal, call, defineRecord,
    makeRecord, getField, jump, popJumpIfFalse, close, add, subtract, multiply, divide, modulo,
    equal, lessThan, greaterThan, negate, logicNot, logicAnd, logicOr]

/-- The byte that stands for the operation in a code image. -/
def code : Opcode → UInt8
  | push => 0
  | pop => 1
  | loadLocal => 2
  | storeLocal => 3
  | loadCaptured => 4
  | storeGlobal => 5
  | loadGlobal => 6
  | call => 7
  | defineRecord => 8
  | makeRecord => 9
  | getField => 10
  | jump => 11
  | popJumpIfFalse => 12
  | close => 13
  | add => 14
  | subtract => 15
  | multiply => 16
  | divide => 17
  | modulo => 18
  | equal => 19
  | lessThan => 20
  | greaterThan => 21
  | negate => 22
  | logicNot => 23
  | logicAnd => 24
  | logicOr => 25

def ofCode? (b : UInt8) : Option Opcode := all.find? (·.code = b)

/-- The word for the operation in listings and messages. -/
def mnemonic : Opcode → String
  | push => "PUSH"
  | pop => "POP"
  | loadLocal => "LOAD_LOCAL"
  | storeLocal => "STORE_LOCAL"
  | loadCaptured => "LOAD_DEREF"
  | storeGlobal => "STORE_GLOBAL"
  | loadGlobal => "LOAD_GLOBAL"
  | call => "CALL"
  | defineRecord => "ADD_STRUCT"
  | makeRecord => "MAKE_STRUCT"
  | getField => "GET_FIELD"
  | jump => "JMP"
  | popJumpIfFalse => "POP_JMP_IF_FALSE"
  | close => "FREE_VAR"
  | add => "ADD"
  | subtract => "SUBTRACT"
  | multiply => "MULTIPLY"
  | divide => "DIVIDE"
  | modulo => "MOD"
  | equal => "EQUAL"
  | lessThan => "LESS_THAN"
  | greaterThan => "GREATER_THAN"
  | negate => "NEGATE"
  | logicNot => "LOGIC_NOT"
  | logicAnd => "LOGIC_AND"
  | logicOr => "LOGIC_OR"

/-- The shape of operand that the operation takes. -/
def shape : Opcode → OperandShape
  | push | loadLocal | storeLocal | loadCaptured | storeGlobal | loadGlobal | jump
  | popJumpIfFalse => .index
  | close => .captures
  | call => .names
  | defineRecord | makeRecord => .record
  | getField => .field
  | pop | add | subtract | multiply | divide | modulo | equal | lessThan | greaterThan | negate
  | logicNot | logicAnd | logicOr => .none

@[simp] theorem ofCode?_code (op : Opcode) : ofCode? op.code = some op := by
  cases op <;> decide

theorem ofCode?_eq_some_iff {b : UInt8} {op : Opcode} : ofCode? b = some op ↔ b = op.code := by
  refine ⟨fun h => ?_, fun h => h ▸ ofCode?_code op⟩
  have found := List.find?_some h
  exact (of_decide_eq_true found).symm

end Opcode
end StackCode
