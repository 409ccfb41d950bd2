/-!
# Line maps

A line map relates instructions to places in source files. It is a list of records, each of which
says from which instruction on the line, or the file, is another one. In a well-formed map the
records stand in the order of their instructions.
-/

namespace StackCode

/-- A line of a source file. -/
structure Location where
  path : String
  line : UInt16
deriving DecidableEq, Repr, Inhabited

/-- What changes at an instruction: the line or the file. -/
inductive LineChange where
  | line (number : UInt16)
  | path (name : String)
deriving DecidableEq, Repr

/-- The records of a line map, each with the instruction at which it starts to hold. -/
structure LineMap where
  records : List (UInt32 × LineChange)
deriving DecidableEq, Repr, Inhabited

namespace Location

/-- The text of a location: the path, a colon and the line. -/
def text (l : Location) : String := l.path ++ s!":{l.line}"

/-- The location after a change. -/
def apply (l : Location) : LineChange → Location
  | .line number => { l with line := number }
  | .path name => { l with path := name }

end Location

namespace LineMap

def empty : LineMap := ⟨[]⟩

def size (map : LineMap) : Nat := map.records.length

def isEmpty (map : LineMap) : Bool := map.records.isEmpty

def get? (map : LineMap) (index : Nat) : Option (UInt32 × LineChange) := map.records[index]?

/-- Whether no record starts before the one in front of it. -/
def isSortedList : List (UInt32 × LineChange) → Bool
  | first :: second :: rest => first.1 ≤ second.1 && isSortedList (second :: rest)
  | _ => true

/-- Whether the records stand in the order of their instructions. -/
def isSorted (map : LineMap) : Bool := isSortedList map.records

/-- The location of the instruction at `offset` in code that starts at `origin`: every record from
the front is applied, up to the first that starts behind the instruction. -/
def locate (map : LineMap) (offset : Nat) (origin : Location) : Location :=
  (map.records.takeWhile (·.1.toNat ≤ offset)).foldl (fun l record => l.apply record.2) origin

end LineMap
end StackCode
