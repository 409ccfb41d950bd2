/-!
# Double precision numbers

A real constant is kept as the 64 bits of its binary64 form, so that nothing is lost in storage: the
payload of a NaN and the sign of a zero are part of the value. Two notions of sameness follow.
Equality of `Binary64` compares the bits; `Binary64.agrees` is numeric comparison, for which a NaN
differs from itself and the two zeros are equal.
-/

namespace StackCode

/-- A double precision number, by its bits. -/
structure Binary64 where
  bits : UInt64
deriving DecidableEq, Repr

namespace Binary64

/-- What the bits stand for, apart from the sign. -/
inductive Magnitude where
  | nan
  | infinite
  /-- The number `significand * 2 ^ exponent`. -/
  | finite (significand : Nat) (exponent : Int)
deriving DecidableEq, Repr

/-- The bit of the sign. -/
def signBit : Nat := 0x8000000000000000

/-- The bit in front of the fraction of a normal number. It is not stored, so that it is the lowest
bit of the exponent in the stored form. -/
def hiddenBit : Nat := 0x10000000000000

/-- The exponent field of the infinities and NaNs. -/
def specialExponent : Nat := 0x7FF

def isNegative (x : Binary64) : Bool := signBit ≤ x.bits.toNat

def exponentField (x : Binary64) : Nat := x.bits.toNat / hiddenBit % 0x800

def fractionField (x : Binary64) : Nat := x.bits.toNat % hiddenBit

/-- Decodes the exponent and fraction bits. -/
def magnitude (x : Binary64) : Magnitude :=
  if x.exponentField = specialExponent then
    if x.fractionField = 0 then .infinite else .nan
  else if x.exponentField = 0 then .finite x.fractionField (-1074)
  else .finite (hiddenBit + x.fractionField) (Int.ofNat x.exponentField - 1075)

/-- Whether the bits stand for no number. -/
def isNaN (x : Binary64) : Bool := x.magnitude = .nan

/-- Whether the bits are those of a zero of either sign. -/
def isZero (x : Binary64) : Bool := x.bits.toNat % signBit = 0

/-- Numeric equality: a NaN differs from everything, and the two zeros are equal. -/
def agrees (x y : Binary64) : Bool :=
  !x.isNaN && !y.isNaN && (x.bits == y.bits || (x.isZero && y.isZero))

/-- Sets the sign bit of a magnitude given by its lower 63 bits. -/
def withSign (negative : Bool) (lower : Nat) : Binary64 :=
  ⟨UInt64.ofNat (if negative then signBit + lower else lower)⟩

def infinity (negative : Bool) : Binary64 := withSign negative (specialExponent * hiddenBit)

/-- The NaN of a sign that carries no payload. -/
def quietNaN (negative : Bool) : Binary64 :=
  withSign negative (specialExponent * hiddenBit + hiddenBit / 2)

theorem agrees_comm (x y : Binary64) : x.agrees y = y.agrees x := by
  have hb : (x.bits == y.bits) = (y.bits == x.bits) := by
    rw [Bool.eq_iff_iff, beq_iff_eq, beq_iff_eq]
    exact eq_comm
  unfold agrees
  rw [hb]
  cases x.isNaN <;> cases y.isNaN <;> cases x.isZero <;> cases y.isZero <;> simp

theorem agrees_self {x : Binary64} (h : x.isNaN = false) : x.agrees x = true := by
  simp [agrees, h]

end Binary64
end StackCode
