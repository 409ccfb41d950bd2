/-!
# Byte order

A word of several bytes is stored with its least significant byte first or last. `encode` and
`decode` work for words of any width.
-/

namespace StackCode

/-- The order of the bytes of a word. -/
inductive ByteOrder where
  | little
  | big
deriving DecidableEq, Repr

namespace ByteOrder

instance : Inhabited ByteOrder := ⟨little⟩

/-- The lowest `width` bytes of a number, least significant first. -/
def leastFirst : Nat → Nat → List UInt8
  | 0, _ => []
  | width + 1, n => UInt8.ofNat n :: leastFirst width (n / 256)

/-- The number whose bytes are given least significant first. -/
def ofLeastFirst : List UInt8 → Nat
  | [] => 0
  | b :: rest => b.toNat + 256 * ofLeastFirst rest

/-- The lowest `width` bytes of a number, in an order. -/
def encode (order : ByteOrder) (width n : Nat) : List UInt8 :=
  match order with
  | little => leastFirst width n
  | big => (leastFirst width n).reverse

/-- The number whose bytes are given in an order. -/
def decode (order : ByteOrder) (bytes : List UInt8) : Nat :=
  match order with
  | little => ofLeastFirst bytes
  | big => ofLeastFirst bytes.reverse

@[simp] theorem length_leastFirst (width n : Nat) : (leastFirst width n).length = width := by
  induction width generalizing n with
  | zero => rfl
  | succ width ih => simp [leastFirst, ih]

@[simp] theorem length_encode (order : ByteOrder) (width n : Nat) :
    (order.encode width n).length = width := by
  cases order <;> simp [encode]

theorem ofLeastFirst_leastFirst (width n : Nat) :
    ofLeastFirst (leastFirst width n) = n % Nat.pow 256 width := by
  induction width generalizing n with
  | zero => exact (Nat.mod_one n).symm
  | succ width ih =>
    have lowest : (UInt8.ofNat n).toNat = n % 256 := by simp
    have wider : Nat.pow 256 (width + 1) = 256 * Nat.pow 256 width := Nat.mul_comm _ _
    rw [leastFirst, ofLeastFirst, ih, lowest, wider, Nat.mod_mul]

/-- Decoding gives back the number as far as the width can hold it. -/
theorem decode_encode (order : ByteOrder) (width n : Nat) :
    order.decode (order.encode width n) = n % Nat.pow 256 width := by
  cases order <;> simp [decode, encode, ofLeastFirst_leastFirst]

theorem leastFirst_ofLeastFirst (bytes : List UInt8) :
    leastFirst bytes.length (ofLeastFirst bytes) = bytes := by
  induction bytes with
  | nil => rfl
  | cons b rest ih =>
    have bound : b.toNat < 256 := b.toNat_lt
    have lowest : UInt8.ofNat (b.toNat + 256 * ofLeastFirst rest) = b := by
      apply UInt8.toNat.inj
      simp
    have higher : (b.toNat + 256 * ofLeastFirst rest) / 256 = ofLeastFirst rest := by omega
    rw [ofLeastFirst, List.length_cons, leastFirst, lowest, higher, ih]

/-- Encoding gives back the bytes that were decoded. -/
theorem encode_decode (order : ByteOrder) (bytes : List UInt8) :
    order.encode bytes.length (order.decode bytes) = bytes := by
  cases order with
  | little => exact leastFirst_ofLeastFirst bytes
  | big =>
    have h := leastFirst_ofLeastFirst bytes.reverse
    rw [List.length_reverse] at h
    simp [encode, decode, h]

end ByteOrder
end StackCode
