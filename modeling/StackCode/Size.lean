/-!
# Sizes

Lengths, counts and capacities are natural numbers. A size computed from 64-bit counts that come
from outside is clipped at the largest 64-bit word: a product of two such counts can then be too
large to fit anywhere, but never wrap round to a small size.
-/

namespace StackCode
namespace Size

/-- The largest size a 64-bit machine can name. -/
def largest : Nat := 0xFFFFFFFFFFFFFFFF

/-- Clips a number to the sizes a 64-bit machine can name. -/
def clip (n : Nat) : Nat := min n largest

/-- The sum of two sizes, clipped. -/
def add (a b : Nat) : Nat := clip (a + b)

/-- The product of two sizes, clipped. -/
def mul (a b : Nat) : Nat := clip (a * b)

theorem clip_le (n : Nat) : clip n ≤ n := Nat.min_le_left n largest

/-- Below the largest size, clipping is invisible to a comparison. -/
theorem clip_le_iff {n m : Nat} (h : m < largest) : clip n ≤ m ↔ n ≤ m := by
  unfold clip
  omega

end Size

/-- A position outside a sequence: how long the sequence is, and which position was asked for. -/
structure OutOfBounds where
  length : Nat
  index : Nat
deriving DecidableEq, Repr

/-- The wording of a position outside a sequence. -/
def OutOfBounds.message (fault : OutOfBounds) : String :=
  s!"index out of bounds: the len is {fault.length} but the index is {fault.index}"

/-- The element at a position, or the position as a fault. -/
def fetch {α : Type} (items : List α) (index : Nat) : Except OutOfBounds α :=
  match items[index]? with
  | some item => .ok item
  | none => .error ⟨items.length, index⟩

theorem fetch_eq_ok_iff {α : Type} {items : List α} {index : Nat} {item : α} :
    fetch items index = .ok item ↔ items[index]? = some item := by
  unfold fetch
  cases items[index]? <;> simp

end StackCode
