import StackCode.Names.Map
import StackCode.Value.Constant

/-!
# Record heaps

The records that a running program builds. A heap owns them and hands out references; a record lives
until the heap is cleared.
-/

namespace StackCode

/-- The records built so far, oldest first. -/
structure RecordHeap where
  records : Array (NameMap Constant)
deriving DecidableEq

namespace RecordHeap

def empty : RecordHeap := ⟨#[]⟩

instance : Inhabited RecordHeap := ⟨empty⟩

def size (heap : RecordHeap) : Nat := heap.records.size

def isEmpty (heap : RecordHeap) : Bool := heap.records.isEmpty

/-- Adds a record, and gives the reference to it. -/
def alloc (heap : RecordHeap) (fields : NameMap Constant) : RecordId × RecordHeap :=
  (⟨heap.size⟩, ⟨heap.records.push fields⟩)

def get? (heap : RecordHeap) (id : RecordId) : Option (NameMap Constant) := heap.records[id.index]?

/-- Replaces the fields of a record, if it exists. -/
def set (heap : RecordHeap) (id : RecordId) (fields : NameMap Constant) : RecordHeap :=
  ⟨heap.records.setIfInBounds id.index fields⟩

/-- The value of a field of a record, if both exist. -/
def field? (heap : RecordHeap) (id : RecordId) (name : String) : Option Constant :=
  (heap.get? id).bind (·.find? name)

end RecordHeap
end StackCode
