import StackCode.Names.List

/-!
# Instructions

An instruction is an operation with an operand. `Instruction.make` pairs the two only if the operand
has the shape that the operation takes. An instruction that was read from data notation has not
passed through it, and may hold any operand.
-/

namespace StackCode

/-- One variable that a closure captures. -/
structure Variable where
  kind : VariableKind
  index : UInt8
deriving DecidableEq, Repr

/-- What an operation works on. -/
inductive Operand where
  | none
  /-- A position among constants, locals, captures, globals or instructions. -/
  | index (value : UInt32)
  /-- The variables that a closure captures, in order. -/
  | captures (list : List Variable)
  /-- The particles of a call. -/
  | names (list : NameList)
  /-- The name of a record type and its fields. -/
  | record (name : String) (fields : NameList)
  /-- The name of a field. -/
  | field (name : String)
deriving DecidableEq, Repr

/-- An operation with its operand. -/
structure Instruction where
  opcode : Opcode
  operand : Operand
deriving DecidableEq, Repr

namespace Variable

def text (v : Variable) : String := v.kind.label ++ s!" {v.index}"

end Variable

namespace Operand

/-- The shape of an operand. -/
def shape : Operand → OperandShape
  | none => .none
  | index _ => .index
  | captures _ => .captures
  | names _ => .names
  | record _ _ => .record
  | field _ => .field

/-- The parts of the text of an operand in listings, which stand after the mnemonic. -/
def words : Operand → List String
  | none => []
  | index value => [toString value]
  | captures list => [Text.bracketed (list.map Variable.text)]
  | names list => [Text.bracketed list.names]
  | record name fields => [name, Text.bracketed fields.names]
  | field name => [name]

end Operand

namespace Instruction

/-- Pairs an operation with an operand of the shape that it takes. -/
def make (opcode : Opcode) (operand : Operand) : Except Error Instruction :=
  if opcode.shape = operand.shape then .ok ⟨opcode, operand⟩ else .error (.operandMismatch opcode)

/-- Whether the operand has the shape that the operation takes. -/
def IsShaped (i : Instruction) : Prop := i.opcode.shape = i.operand.shape

instance (i : Instruction) : Decidable i.IsShaped := inferInstanceAs (Decidable (_ = _))

/-- The index operand, if there is one. -/
def index? (i : Instruction) : Option UInt32 :=
  match i.operand with
  | .index value => some value
  | _ => .none

def text (i : Instruction) : String := " ".intercalate (i.opcode.mnemonic :: i.operand.words)

theorem make_eq_ok_iff {opcode : Opcode} {operand : Operand} {i : Instruction} :
    make opcode operand = .ok i ↔ i = ⟨opcode, operand⟩ ∧ i.IsShaped := by
  unfold make
  split
  · next h =>
    constructor
    · intro e
      cases e
      exact ⟨rfl, h⟩
    · rintro ⟨rfl, _⟩
      rfl
  · next h =>
    constructor
    · intro e
      cases e
    · rintro ⟨rfl, shaped⟩
      exact absurd shaped h

end Instruction
end StackCode
