import StackCode.Binary64.Basic
import StackCode.Bytes.Order
import StackCode.Error
import StackCode.Size

/-!
# Reading bytes

A cursor stands before some bytes and knows how many lie behind it. Every read first checks that
enough bytes are left; a read that fails says at which offset. The cursor that a failed read leaves
behind is part of its result: a fixed-width read leaves it where it was, and a text whose length
has been read leaves it behind the length.
-/

namespace StackCode

/-- A position in a sequence of bytes. -/
structure Cursor where
  rest : List UInt8
  offset : Nat
  order : ByteOrder
deriving DecidableEq, Repr

/-- A step that reads from a cursor. -/
abbrev Read := EStateM Error Cursor

namespace Cursor

/-- The cursor before all the bytes. -/
def start (order : ByteOrder) (bytes : List UInt8) : Cursor := ⟨bytes, 0, order⟩

def remaining (c : Cursor) : Nat := c.rest.length

def isEmpty (c : Cursor) : Bool := c.rest.isEmpty

/-- Whether a list has at least `n` items. It looks at no more than `n` of them. -/
def reaches {α : Type} : Nat → List α → Bool
  | 0, _ => true
  | _ + 1, [] => false
  | n + 1, _ :: rest => reaches n rest

theorem reaches_iff {α : Type} {n : Nat} {items : List α} :
    reaches n items = true ↔ n ≤ items.length := by
  fun_induction reaches n items with
  | case1 => simp
  | case2 => simp
  | case3 n first rest ih => simp [ih]

def has (c : Cursor) (n : Nat) : Bool := reaches n c.rest

theorem has_iff {c : Cursor} {n : Nat} : c.has n = true ↔ n ≤ c.remaining := reaches_iff

def skip (c : Cursor) (n : Nat) : Cursor := { c with rest := c.rest.drop n, offset := c.offset + n }

end Cursor

namespace Read

def offset : Read Nat := return (← get).offset

/-- Fails with a corruption at an offset. -/
def corrupt {α : Type} (offset : Nat) (cause : Corruption) : Read α :=
  throw (.corrupt offset cause)

/-- The next `n` bytes. -/
def take (n : Nat) : Read (List UInt8) := do
  let c ← get
  if !c.has n then corrupt c.offset (.unexpectedEnd n c.remaining)
  set (c.skip n)
  return c.rest.take n

/-- An unsigned word of `width` bytes. -/
def word (width : Nat) : Read Nat := do
  let bytes ← take width
  return (← get).order.decode bytes

def byte : Read UInt8 := return UInt8.ofNat (← word 1)

def word16 : Read UInt16 := return UInt16.ofNat (← word 2)

def word32 : Read UInt32 := return UInt32.ofNat (← word 4)

def word64 : Read UInt64 := return UInt64.ofNat (← word 8)

/-- A signed word of eight bytes, in two's complement. -/
def int64 : Read Int64 := return (← word64).toInt64

/-- A real, by its bits. -/
def real : Read Binary64 := return ⟨← word64⟩

/-- A boolean, stored as zero or one. -/
def boolean : Read Bool := do
  let start ← offset
  let stored ← byte
  if stored = 0 then return false
  else if stored = 1 then return true
  else corrupt start (.invalidBoolean stored)

/-- Text of `n` bytes in UTF-8. -/
def utf8 (n : Nat) : Read String := do
  let start ← offset
  let bytes ← take n
  match String.fromUTF8? bytes.toByteArray with
  | some text => return text
  | none => corrupt start .invalidText

/-- Text behind its length as a word of eight bytes. -/
def text : Read String := do utf8 (← word64).toNat

/-- Text behind its length as a byte. -/
def shortText : Read String := do utf8 (← byte).toNat

/-- What the first byte of a character announces: how many bytes follow it, the bits of the code
that it holds, and the least code that is written so. -/
def leadByte (lead : UInt8) : Option (Nat × Nat × Nat) :=
  let n := lead.toNat
  if n < 0x80 then some (0, n, 0)
  else if n < 0xC0 then none
  else if n < 0xE0 then some (1, n % 0x20, 0x80)
  else if n < 0xF0 then some (2, n % 0x10, 0x800)
  else if n < 0xF8 then some (3, n % 0x08, 0x10000)
  else none

/-- Adds the bits of the bytes that follow the first to a code. -/
def continued (code : Nat) : List UInt8 → Option Nat
  | [] => some code
  | b :: rest =>
    let n := b.toNat
    if 0x80 ≤ n ∧ n < 0xC0 then continued (code * 0x40 + n % 0x40) rest else none

/-- A character in UTF-8; a code written with more bytes than it needs is refused. -/
def character : Read Char := do
  let start ← offset
  let lead ← byte
  match leadByte lead with
  | none => corrupt start .invalidText
  | some (following, bits, least) =>
    let bytes ← take following
    match continued bits bytes with
    | none => corrupt start .invalidText
    | some code =>
      if code < least then corrupt start .invalidText
      else if code.isValidChar then return Char.ofNat code
      else corrupt start (.invalidCharacter code)

/-- Checks that `count` items of at least `least` bytes each can still follow. An item is taken to
have at least one byte. -/
def checkCount (start : Nat) (what : String) (count least : Nat) : Read Nat := do
  let c ← get
  if !c.has (Size.mul count (max least 1)) then
    corrupt start (.countTooLarge what count c.remaining)
  return count

/-- The number of items of a table, as a word of eight bytes. -/
def count (what : String) (least : Nat) : Read Nat := do
  let start ← offset
  checkCount start what (← word64).toNat least

/-- The number of items of a table, as a byte. -/
def shortCount (what : String) (least : Nat) : Read Nat := do
  let start ← offset
  checkCount start what (← byte).toNat least

/-- A number of items, one behind the other. -/
def repeated {α : Type} (item : Read α) : Nat → Read (List α)
  | 0 => return []
  | n + 1 => do
    let first ← item
    let others ← repeated item n
    return first :: others

/-- A table: the number of its items, then the items. -/
def table {α : Type} (what : String) (least : Nat) (item : Read α) : Read (List α) := do
  repeated item (← count what least)

/-- A table of at most 255 items. -/
def shortTable {α : Type} (what : String) (least : Nat) (item : Read α) : Read (List α) := do
  repeated item (← shortCount what least)

end Read
end StackCode
