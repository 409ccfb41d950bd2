import StackCode.Bytes.Order

/-!
# Settings

What a reader of code images can be told: the byte order, and the limits within which it stays.
-/

namespace StackCode

/-- How a code image is read. -/
structure Settings where
  order : ByteOrder
  /-- How deep functions may nest inside each other. -/
  maxDepth : UInt64
  /-- The greatest number of operands that a function may take. -/
  maxOperands : UInt64
  /-- Whether bytes behind the root function are an error. -/
  rejectTrailing : Bool
deriving DecidableEq, Repr

namespace Settings

/-- Little-endian images, at most 256 levels of nesting, and no other limit. -/
def standard : Settings := ⟨.little, 256, 18446744073709551615, false⟩

instance : Inhabited Settings := ⟨standard⟩

end Settings
end StackCode
