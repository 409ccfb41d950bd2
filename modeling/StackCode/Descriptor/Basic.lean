import StackCode.Descriptor.LineMap
import StackCode.Instruction.Basic
import StackCode.Value.Constant

/-!
# Descriptors

A descriptor is the static description of a function: its name and place, what it takes, its
constant pool and its code. The entries of the pool are a parameter. In a program they are values,
and other functions are referred to; in a tree of code they hold the nested functions themselves.
-/

namespace StackCode

/-- The static description of a function with pool entries of type `κ`. -/
structure Descriptor (κ : Type) where
  name : String
  origin : Location
  /-- The particles of the function's named parameters. -/
  particles : NameList
  /-- The names of the globals that the code refers to. -/
  globals : List String
  /-- How many operands the function takes from the caller's stack. -/
  operandCount : UInt64
  localCount : UInt32
  pool : List κ
  lines : LineMap
  code : List Instruction
deriving DecidableEq

namespace Descriptor

variable {κ : Type}

/-- A descriptor that has a name and is empty otherwise. -/
def named (name : String) : Descriptor κ :=
  { name
    origin := ⟨"", 0⟩
    particles := .empty
    globals := []
    operandCount := 0
    localCount := 0
    pool := []
    lines := .empty
    code := [] }

/-- The same description around another pool. -/
def withPool {ι : Type} (d : Descriptor κ) (pool : List ι) : Descriptor ι :=
  { name := d.name
    origin := d.origin
    particles := d.particles
    globals := d.globals
    operandCount := d.operandCount
    localCount := d.localCount
    pool
    lines := d.lines
    code := d.code }

/-- The slots that a frame reserves above the locals and operands. -/
def evaluationSlots : Nat := 256

/-- The number of slots of a frame for the function. -/
def frameCapacity (d : Descriptor κ) : Nat :=
  Size.add (Size.add d.localCount.toNat d.operandCount.toNat) evaluationSlots

def locate (d : Descriptor κ) (offset : Nat) : Location := d.lines.locate offset d.origin

/-- Whether two descriptors are equal, reals in the pools being compared as numbers. -/
def agrees (a b : Descriptor Constant) : Bool :=
  a.withPool ([] : List Constant) = b.withPool [] && Constant.agreesAll a.pool b.pool

end Descriptor
end StackCode
