import StackCode.Bytes.Sink
import StackCode.Program.Basic

/-!
# Writing code images

The image of a program is the record of its root function, with the record of every function of a
constant pool in place. Functions refer to each other by position, and nothing keeps them from
referring in a circle. The writer therefore remembers the descriptors whose records are open, and
refuses to open one inside itself. Every record that is opened leaves fewer descriptors that are not
open, so writing ends for every program.
-/

namespace StackCode
namespace Write

/-- Writes a captured variable. -/
def capturedVariable (v : Variable) : Write Unit := do
  byte v.kind.tag
  byte v.index

/-- Writes an operand. -/
def operand : Operand → Write Unit
  | .none => return ()
  | .index value => word32 value
  | .captures list => do
    if 255 < list.length then throw (.listTooLong "free variable" list.length)
    byte (UInt8.ofNat list.length)
    each capturedVariable list
  | .names list => nameList list
  | .record name fields => do
    shortText name
    nameList fields
  | .field name => shortText name

/-- Writes the code of the operation, then the operand. -/
def instruction (i : Instruction) : Write Unit := do
  byte i.opcode.code
  operand i.operand

/-- Writes a record of a line map. -/
def lineRecord (record : UInt32 × LineChange) : Write Unit := do
  word32 record.1
  match record.2 with
  | .line number => do
    boolean true
    word16 number
  | .path name => do
    boolean false
    text name

/-- Writes a value of a constant pool, with a given writer for functions. -/
def constant (nested : FunctionId → Write Unit) (c : Constant) : Write Unit := do
  byte c.kind.tag
  match c with
  | .nothing => return ()
  | .integer value => int64 value
  | .real value => real value
  | .boolean value => boolean value
  | .character value => character value
  | .function id => nested id
  | .record _ => throw (.unstorableConstant c.kind)

/-- Writes the record of a function, with a given writer for the functions of its pool. -/
def record (nested : FunctionId → Write Unit) (d : Descriptor Constant) : Write Unit := do
  nameList d.particles
  table text d.globals
  word64 d.operandCount
  word32 d.localCount
  table (constant nested) d.pool
  text d.name
  text d.origin.path
  word16 d.origin.line
  table lineRecord d.lines.records
  table instruction d.code

end Write

namespace Program

/-- The number of descriptors that are not open. -/
def closedCount (p : Program) (opened : List DescriptorId) : Nat :=
  (List.range p.descriptorCount).countP fun index => ⟨index⟩ ∉ opened

/-- A narrower condition that loses a member of the list holds of fewer members. -/
theorem countP_lt_of_imp {α : Type} {wide narrow : α → Bool} {items : List α} {lost : α}
    (imp : ∀ x, narrow x = true → wide x = true) (member : lost ∈ items)
    (in_wide : wide lost = true) (not_narrow : narrow lost = false) :
    items.countP narrow < items.countP wide := by
  induction items with
  | nil => cases member
  | cons first rest ih =>
    have smaller : rest.countP narrow ≤ rest.countP wide :=
      List.countP_mono_left fun x _ => imp x
    rw [List.countP_cons, List.countP_cons]
    rcases List.mem_cons.1 member with rfl | inside
    · rw [in_wide, not_narrow]
      simp
      omega
    · have less := ih inside
      cases hn : narrow first with
      | false => simp; omega
      | true => simp [imp first hn, less]

/-- Opening a descriptor leaves fewer that are not open. -/
theorem closedCount_cons_lt {p : Program} {opened : List DescriptorId} {id : DescriptorId}
    (exists_id : id.index < p.descriptorCount) (closed : id ∉ opened) :
    p.closedCount (id :: opened) < p.closedCount opened := by
  refine countP_lt_of_imp ?_ (List.mem_range.2 exists_id) ?_ ?_
  · intro index h
    simp only [List.mem_cons, not_or, decide_eq_true_eq] at h ⊢
    exact h.2
  · simpa using closed
  · simp

/-- Writes the record of a function, inside the records of the descriptors that are open. -/
def writeFunction (p : Program) (opened : List DescriptorId) (id : FunctionId) : Write Unit :=
  match p.function? id with
  | none => throw (.unknownFunction id)
  | some f =>
    match found : p.descriptor? f.descriptor with
    | none => throw (.unknownFunction id)
    | some d =>
      if inside : f.descriptor ∈ opened then throw (.recursiveFunction id)
      else
        have := closedCount_cons_lt (Array.getElem?_eq_some_iff.1 found).1 inside
        Write.record (fun nested => writeFunction p (f.descriptor :: opened) nested) d
termination_by p.closedCount opened

/-- Writes the image of a program, which must have a root. -/
def write (p : Program) : Write Unit :=
  match p.root with
  | none => throw .noRoot
  | some id => p.writeFunction [] id

/-- Writes the image of a program to a sink, and gives the sink with the first error, if any. -/
def writeTo (p : Program) (sink : Sink) : Sink × Except Error Unit :=
  match p.write sink with
  | .ok _ sink => (sink, .ok ())
  | .error e sink => (sink, .error e)

/-- The image of a program. -/
def encode (p : Program) (order : ByteOrder) : Except Error (List UInt8) :=
  match p.writeTo (Sink.empty order none) with
  | (sink, .ok _) => .ok sink.bytes.toList
  | (_, .error e) => .error e

end Program
end StackCode
