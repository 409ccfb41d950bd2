import StackCode.Binary64.Basic
import StackCode.Bytes.Order
import StackCode.Error
import StackCode.Names.List

/-!
# Writing bytes

A sink collects bytes, up to its limit if it has one. Writing to a sink that cannot take all the
bytes leaves in it those that it can take, and fails. The sink that a failed step leaves behind is
part of its result.
-/

namespace StackCode

/-- A receiver of bytes. -/
structure Sink where
  bytes : Array UInt8
  /-- How many bytes the sink can hold; any number if there is no limit. -/
  limit : Option Nat
  order : ByteOrder
deriving DecidableEq, Repr

/-- A step that writes to a sink. -/
abbrev Write := EStateM Error Sink

namespace Sink

def empty (order : ByteOrder) (limit : Option Nat) : Sink := ⟨#[], limit, order⟩

/-- How many of `n` further bytes the sink can take. -/
def room (s : Sink) (n : Nat) : Nat :=
  match s.limit with
  | none => n
  | some limit => min n (limit - s.bytes.size)

end Sink

namespace Write

/-- Writes bytes as they are. -/
def raw (bytes : List UInt8) : Write Unit := do
  let s ← get
  let taken := s.room bytes.length
  set { s with bytes := s.bytes ++ bytes.take taken }
  if taken < bytes.length then throw .sinkFull

/-- Writes the lowest `width` bytes of a number. -/
def word (width n : Nat) : Write Unit := do raw ((← get).order.encode width n)

def byte (value : UInt8) : Write Unit := word 1 value.toNat

def word16 (value : UInt16) : Write Unit := word 2 value.toNat

def word32 (value : UInt32) : Write Unit := word 4 value.toNat

def word64 (value : UInt64) : Write Unit := word 8 value.toNat

/-- Writes a signed word of eight bytes, in two's complement. -/
def int64 (value : Int64) : Write Unit := word64 value.toUInt64

/-- Writes a real by its bits. -/
def real (value : Binary64) : Write Unit := word64 value.bits

/-- Writes a boolean as zero or one. -/
def boolean (value : Bool) : Write Unit := byte (if value then 1 else 0)

/-- Writes a character in UTF-8. -/
def character (c : Char) : Write Unit := raw (String.utf8EncodeChar c)

/-- The bytes of a text in UTF-8. -/
def utf8 (text : String) : List UInt8 := text.toUTF8.data.toList

/-- Writes a text behind its length as a word of eight bytes. -/
def text (value : String) : Write Unit := do
  word64 (UInt64.ofNat value.utf8ByteSize)
  raw (utf8 value)

/-- Writes a text behind its length as a byte. -/
def shortText (value : String) : Write Unit := do
  let size := value.utf8ByteSize
  if 255 < size then throw (.textTooLong size 255)
  byte (UInt8.ofNat size)
  raw (utf8 value)

/-- Writes each item in turn. -/
def each {α : Type} (item : α → Write Unit) : List α → Write Unit
  | [] => return ()
  | first :: others => do
    item first
    each item others

/-- Writes the number of items as a word of eight bytes, then the items. -/
def table {α : Type} (item : α → Write Unit) (items : List α) : Write Unit := do
  word64 (UInt64.ofNat items.length)
  each item items

/-- Writes the number of names as a byte, then the names. -/
def nameList (list : NameList) : Write Unit := do
  byte list.count
  each shortText list.names

end Write
end StackCode
