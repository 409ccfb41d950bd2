import StackCode.Descriptor.Basic

/-!
# Frames

A frame holds the values of one call. It is a fixed row of slots: the locals lie in the low slots,
and the evaluation stack grows above them. Pushing and popping work at the depth; any slot can be
read, stored to and loaded from by its position.

Reading and writing a slot that is not there is a misuse of its own, so an operation has to check
that its slots are there, or rely on the depth.

An operation that does not fit the frame is refused. The frame that a refused operation leaves
behind is part of its result.
-/

namespace StackCode

/-- An operation that does not fit the frame. -/
inductive Misuse where
  | overflow (capacity : Nat)
  | underflow
  | slotOutOfBounds (capacity index : Nat)
  /-- A slot was read or written that is not there, and nothing had checked that it is. -/
  | missingSlot (capacity index : Nat)
  /-- The instruction at the largest position has no next one. -/
  | offsetOverflow
deriving DecidableEq, Repr

/-- The values of one call. -/
structure Frame where
  descriptor : Descriptor Constant
  slots : Array Constant
  /-- One past the topmost slot in use. -/
  depth : Nat
  /-- The position of the instruction that is being executed. -/
  position : UInt64
deriving DecidableEq

namespace Misuse

/-- The wording of a misuse. -/
def message : Misuse → String
  | overflow capacity => s!"stack frame overflow: all {capacity} slots are in use"
  | underflow => "stack frame underflow: pop from an empty frame"
  | slotOutOfBounds capacity index =>
    s!"stack slot out of bounds: the capacity is {capacity} but the index is {index}"
  | missingSlot capacity index =>
    s!"index out of bounds: the len is {capacity} but the index is {index}"
  | offsetOverflow => "attempt to add with overflow"

end Misuse

namespace Frame

/-- An operation on a frame. -/
abbrev Operation := EStateM Misuse Frame

/-- The frame of a descriptor with a number of slots, or one slot per local if that is more. -/
def withCapacity (d : Descriptor Constant) (capacity : Nat) : Frame :=
  { descriptor := d
    slots := Array.replicate (max capacity d.localCount.toNat) .nothing
    depth := d.localCount.toNat
    position := 0 }

/-- The frame of a descriptor with the number of slots that the descriptor asks for. -/
def ofDescriptor (d : Descriptor Constant) : Frame := withCapacity d d.frameCapacity

def capacity (f : Frame) : Nat := f.slots.size

def slot? (f : Frame) (index : Nat) : Option Constant := f.slots[index]?

/-- The constant at a position in the pool of the running code. -/
def constant? (f : Frame) (index : Nat) : Option Constant := f.descriptor.pool[index]?

/-- The position of the instruction that is being executed, as a number. -/
def offset (f : Frame) : Nat := f.position.toNat

/-- The source location of the instruction that is being executed. -/
def location (f : Frame) : Location := f.descriptor.locate f.offset

/-- Reads a slot. -/
def read (index : Nat) : Operation Constant := do
  let f ← get
  match f.slot? index with
  | some value => return value
  | none => throw (.missingSlot f.capacity index)

/-- Writes a slot. -/
def write (index : Nat) (value : Constant) : Operation Unit := do
  let f ← get
  if f.capacity ≤ index then throw (.missingSlot f.capacity index)
  set { f with slots := f.slots.setIfInBounds index value }

/-- Pushes a value, or hands it back if every slot is in use. -/
def tryPush (value : Constant) : Operation (Option Constant) := do
  let f ← get
  if f.capacity ≤ f.depth then return some value
  write f.depth value
  modify fun f => { f with depth := f.depth + 1 }
  return none

/-- Pushes a value. -/
def push (value : Constant) : Operation Unit := do
  match ← tryPush value with
  | none => return
  | some _ => throw (.overflow (← get).capacity)

/-- Pops the value at the top, if a slot is in use. -/
def tryPop : Operation (Option Constant) := do
  match (← get).depth with
  | 0 => return none
  | below + 1 =>
    modify fun f => { f with depth := below }
    return some (← read below)

/-- Pops the value at the top. -/
def pop : Operation Constant := do
  match ← tryPop with
  | some value => return value
  | none => throw .underflow

/-- Reads the value at the top. -/
def top : Operation Constant := do
  match (← get).depth with
  | 0 => throw .underflow
  | below + 1 => read below

/-- Pops the value at the top into a slot. That the slot exists is checked first. -/
def store (index : Nat) : Operation Unit := do
  let f ← get
  if f.capacity ≤ index then throw (.slotOutOfBounds f.capacity index)
  let value ← pop
  write index value

/-- Pushes the value of a slot. -/
def load (index : Nat) : Operation Unit := do
  let f ← get
  match f.slot? index with
  | some value => push value
  | none => throw (.slotOutOfBounds f.capacity index)

/-- Moves to an instruction. A position is a word. -/
def moveTo (offset : Nat) : Operation Unit :=
  modify fun f => { f with position := UInt64.ofNat offset }

/-- The largest position. -/
def lastPosition : UInt64 := 0xFFFFFFFFFFFFFFFF

/-- Moves to the next instruction. -/
def advance : Operation Unit := do
  let f ← get
  if f.position = lastPosition then throw .offsetOverflow
  set { f with position := f.position + 1 }

/-- The frame with a value on top, unless every slot is in use. -/
def push? (f : Frame) (value : Constant) : Option Frame :=
  match tryPush value f with
  | .ok none next => some next
  | _ => none

/-- The value at the top and the frame without it, unless no slot is in use. -/
def pop? (f : Frame) : Option (Constant × Frame) :=
  match tryPop f with
  | .ok (some value) next => some (value, next)
  | _ => none

end Frame
end StackCode
