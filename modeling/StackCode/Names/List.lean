import StackCode.Error
import StackCode.Size

/-!
# Name lists

An ordered list of names, such as the particles of a function's parameters, the particles of a call,
or the fields of a record. Its length is stored in one byte, so the operations that build a list
refuse a name past the 255th. A list that was read from data notation has not passed through them;
its `count` is then the length modulo 256.
-/

namespace StackCode

/-- An ordered list of names. -/
structure NameList where
  names : List String
deriving DecidableEq, Repr, Inhabited

namespace NameList

/-- The greatest length that one byte can hold. -/
def maxLength : Nat := 255

def empty : NameList := ⟨[]⟩

/-- The length, as the byte that stands for it in a code image. -/
def count (list : NameList) : UInt8 := UInt8.ofNat list.names.length

def isEmpty (list : NameList) : Bool := list.names.isEmpty

/-- Adds a name at the end, unless the list is full. -/
def push (list : NameList) (name : String) : Except Error NameList :=
  if list.names.length = maxLength then .error .nameListFull
  else .ok ⟨list.names ++ [name]⟩

/-- The list of the given names, unless they are too many. -/
def ofList (names : List String) : Except Error NameList :=
  if maxLength < names.length then .error .nameListFull else .ok ⟨names⟩

def get? (list : NameList) (index : UInt8) : Option String := list.names[index.toNat]?

/-- The name at a position, or the position as a fault. -/
def fetch (list : NameList) (index : UInt8) : Except OutOfBounds String :=
  StackCode.fetch list.names index.toNat

/-- The number of bytes of the name at a position. -/
def byteSize? (list : NameList) (index : UInt8) : Option Nat :=
  (list.get? index).map String.utf8ByteSize

/-- The position of the first name that is spelled so. -/
def position? (list : NameList) (name : String) : Option UInt8 :=
  (list.names.findIdx? (· = name)).map UInt8.ofNat

/-- Up to the greatest length, `count` is the true length. -/
theorem toNat_count {list : NameList} (h : list.names.length ≤ maxLength) :
    list.count.toNat = list.names.length := by
  have bound : list.names.length < 256 := Nat.lt_of_le_of_lt h (by decide)
  simp [count, Nat.mod_eq_of_lt bound]

theorem ofList_eq_ok_iff {names : List String} {list : NameList} :
    ofList names = .ok list ↔ names.length ≤ maxLength ∧ list.names = names := by
  unfold ofList
  split
  · next h => simp; omega
  · next h =>
    constructor
    · intro e
      cases e
      exact ⟨Nat.le_of_not_lt h, rfl⟩
    · rintro ⟨_, rfl⟩
      rfl

end NameList
end StackCode
