import StackCode.Program.Basic

/-!
# Verification

Reading an image only checks that the image is well formed. Verification checks that the operands
of a program refer to something that exists: constants, locals, globals, jump targets, and the
functions that are pushed. It reports the first violation, descriptor by descriptor; within a
descriptor the line map comes first, then the instructions in order.
-/

namespace StackCode

namespace LineMap

/-- The first record that starts before the one in front of it, if the records are read behind one
that starts at `previous`. -/
def firstUnsorted (previous : UInt32) : List (UInt32 × LineChange) → Option UInt32
  | [] => none
  | (start, _) :: rest => if start < previous then some start else firstUnsorted start rest

end LineMap

namespace Instruction

/-- What is wrong with an instruction of a descriptor, if anything. A jump to the end of the code
returns from the function. -/
def violation? (p : Program) (d : Descriptor Constant) (i : Instruction) : Option Violation :=
  match i.opcode, i.operand with
  | .push, .index index =>
    match d.pool[index.toNat]? with
    | none => some (.constantOutOfRange index d.pool.length)
    | some (.function id) =>
      if (p.function? id).isNone then some (.missingFunction id) else none
    | some _ => none
  | .loadLocal, .index index | .storeLocal, .index index =>
    if d.localCount ≤ index then some (.localOutOfRange index d.localCount) else none
  | .loadGlobal, .index index | .storeGlobal, .index index =>
    if d.globals.length ≤ index.toNat then some (.globalOutOfRange index d.globals.length)
    else none
  | .jump, .index target | .popJumpIfFalse, .index target =>
    if d.code.length < target.toNat then some (.jumpOutOfRange target d.code.length) else none
  | .close, .captures list =>
    (list.find? fun v => v.kind = .slot && d.localCount ≤ v.index.toUInt32).map fun v =>
      .localOutOfRange v.index.toUInt32 d.localCount
  | _, _ => none

end Instruction

namespace Descriptor

/-- The first violation in code whose first instruction stands at `offset`, with its offset. -/
def firstViolation (p : Program) (d : Descriptor Constant) (offset : Nat) :
    List Instruction → Option (Nat × Violation)
  | [] => none
  | i :: rest =>
    match i.violation? p d with
    | some violation => some (offset, violation)
    | none => firstViolation p d (offset + 1) rest

/-- The first violation of a descriptor, with the offset that it is reported at. -/
def violation? (p : Program) (d : Descriptor Constant) : Option (Nat × Violation) :=
  match LineMap.firstUnsorted 0 d.lines.records with
  | some start => some (start.toNat, .unsortedLines start)
  | none => firstViolation p d 0 d.code

/-- Checks a descriptor against the program that owns it. -/
def verify (p : Program) (d : Descriptor Constant) : Except Error Unit :=
  match d.violation? p with
  | some (offset, violation) => .error (.invalidFunction d.name offset violation)
  | none => .ok ()

end Descriptor

namespace Program

/-- Checks descriptors in order, up to the first that fails. -/
def verifyAll (p : Program) : List (Descriptor Constant) → Except Error Unit
  | [] => .ok ()
  | d :: rest => do
    d.verify p
    verifyAll p rest

def verify (p : Program) : Except Error Unit := p.verifyAll p.descriptors.toList

end Program
end StackCode
