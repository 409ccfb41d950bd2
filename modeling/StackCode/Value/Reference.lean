/-!
# References

Functions, descriptors and records are owned by a program or a heap, and everything else refers to
them by position there. A reference may dangle: nothing but the owner knows which positions exist.
-/

namespace StackCode

/-- The position of a descriptor in its program. -/
structure DescriptorId where
  index : Nat
deriving DecidableEq, Repr, Inhabited

/-- The position of a function in its program. -/
structure FunctionId where
  index : Nat
deriving DecidableEq, Repr, Inhabited

/-- The position of a record in its heap. -/
structure RecordId where
  index : Nat
deriving DecidableEq, Repr, Inhabited

end StackCode
