import StackCode.Proofs.Bytes.Report

/-!
# Reading with machine words

A cursor carries the bytes that are left, and its offset is a natural number. A machine keeps the
whole bytes and one word for its position. It finds out how many bytes are left by subtracting the
position from the length, cuts slices out of the bytes between two positions, and multiplies the
count of a table by the size of an item. The reads are written down here once more in this way. A
sum or difference that has no word and a slice that is not in the bytes are *traps*. A trap is no
outcome of a read: it ends the machine.

From a position that stands for a cursor in the bytes, a read with words *mirrors* the read of the
library: it ends with the same outcome at the position that stands for the cursor left behind. This
is passed along sequences, so it is enough to look at the few reads that touch the position.

**Results.**
* `WordRead.toNat_saturated`: the clipped product with words.
* `WordRead.Mirrors.bind`: sequences of reads.
* `WordRead.mirrors_take`, `WordRead.mirrors_checkCount`: the reads that compute with the position.
-/

namespace StackCode

/-- What a machine with words cannot go on from. -/
inductive Trap where
  | wrappedSum
  | wrappedDifference
  | sliceOutside
deriving DecidableEq, Repr

/-- Why a read with words returns nothing. -/
inductive Halt where
  | trapped (trap : Trap)
  | refused (e : Error)
deriving DecidableEq, Repr

/-- A position in some bytes, as a word. -/
structure Window where
  bytes : List UInt8
  position : UInt64
  order : ByteOrder
deriving DecidableEq, Repr

/-- A step that reads with words. -/
abbrev WordRead := EStateM Halt Window

/-- The length of the bytes as a word. -/
def Window.length (w : Window) : UInt64 := UInt64.ofNat w.bytes.length

/-- The position of a cursor in some bytes. -/
def Cursor.window (c : Cursor) (bytes : List UInt8) : Window :=
  ⟨bytes, UInt64.ofNat c.offset, c.order⟩

namespace WordRead

/-- A sum. One past the largest word comes out smaller than its first part. -/
def sum (a b : UInt64) : WordRead UInt64 := do
  if a + b < a then throw (.trapped .wrappedSum)
  return a + b

def difference (a b : UInt64) : WordRead UInt64 := do
  if a < b then throw (.trapped .wrappedDifference)
  return a - b

/-- A product, or the largest word if the product is larger. -/
def saturated (a b : UInt64) : UInt64 :=
  if b = 0 ∨ a ≤ 0xFFFFFFFFFFFFFFFF / b then a * b else 0xFFFFFFFFFFFFFFFF

/-- How many bytes are left. -/
def remaining : WordRead UInt64 := do
  let w ← get
  difference w.length w.position

/-- The bytes between two positions. -/
def slice (start stop : UInt64) : WordRead (List UInt8) := do
  let w ← get
  if stop < start ∨ w.length < stop then throw (.trapped .sliceOutside)
  return (w.bytes.drop start.toNat).take (stop - start).toNat

/-- The position, for reports. -/
def offset : WordRead Nat := return (← get).position.toNat

/-- Fails with a corruption at an offset. -/
def corrupt {α : Type} (offset : Nat) (cause : Corruption) : WordRead α :=
  throw (.refused (.corrupt offset cause))

/-- The next `n` bytes. -/
def take (n : UInt64) : WordRead (List UInt8) := do
  let w ← get
  let left ← remaining
  if left < n then corrupt w.position.toNat (.unexpectedEnd n.toNat left.toNat)
  let stop ← sum w.position n
  let bytes ← slice w.position stop
  set { w with position := stop }
  return bytes

/-- An unsigned word of `width` bytes. -/
def word (width : UInt64) : WordRead Nat := do
  let bytes ← take width
  return (← get).order.decode bytes

def byte : WordRead UInt8 := return UInt8.ofNat (← word 1)

def word16 : WordRead UInt16 := return UInt16.ofNat (← word 2)

def word32 : WordRead UInt32 := return UInt32.ofNat (← word 4)

def word64 : WordRead UInt64 := return UInt64.ofNat (← word 8)

def int64 : WordRead Int64 := return (← word64).toInt64

def real : WordRead Binary64 := return ⟨← word64⟩

def boolean : WordRead Bool := do
  let start ← offset
  let stored ← byte
  if stored = 0 then return false
  else if stored = 1 then return true
  else corrupt start (.invalidBoolean stored)

/-- Text of `n` bytes in UTF-8. -/
def utf8 (n : UInt64) : WordRead String := do
  let start ← offset
  let bytes ← take n
  match String.fromUTF8? bytes.toByteArray with
  | some text => return text
  | none => corrupt start .invalidText

def text : WordRead String := do utf8 (← word64)

def shortText : WordRead String := do utf8 (← byte).toUInt64

def character : WordRead Char := do
  let start ← offset
  let lead ← byte
  match Read.leadByte lead with
  | none => corrupt start .invalidText
  | some (following, bits, least) =>
    let bytes ← take (UInt64.ofNat following)
    match Read.continued bits bytes with
    | none => corrupt start .invalidText
    | some code =>
      if code < least then corrupt start .invalidText
      else if code.isValidChar then return Char.ofNat code
      else corrupt start (.invalidCharacter code)

/-- Checks that `count` items of at least `least` bytes each can still follow. -/
def checkCount (start : Nat) (what : String) (count least : UInt64) : WordRead Nat := do
  let left ← remaining
  if left < saturated count (if least = 0 then 1 else least) then
    corrupt start (.countTooLarge what count.toNat left.toNat)
  return count.toNat

def count (what : String) (least : UInt64) : WordRead Nat := do
  let start ← offset
  checkCount start what (← word64) least

def shortCount (what : String) (least : UInt64) : WordRead Nat := do
  let start ← offset
  checkCount start what (← byte).toUInt64 least

end WordRead

namespace Read

variable {α : Type}

/-- The cursor that a read leaves behind, be it refused or not. -/
def left : EStateM.Result Error Cursor α → Cursor
  | .ok _ c => c
  | .error _ c => c

/-- An outcome of the library as an outcome with words, which is no trap. -/
def inWords (bytes : List UInt8) : EStateM.Result Error Cursor α → EStateM.Result Halt Window α
  | .ok a c => .ok a (c.window bytes)
  | .error e c => .error (.refused e) (c.window bytes)

end Read

namespace WordRead

open Step

variable {α β : Type} {bytes : List UInt8} {c : Cursor}

/-- From every cursor in the bytes, the read with words has the outcome of the read of the library,
and the cursor left behind is in the bytes and no further back. -/
def Mirrors (bytes : List UInt8) (words : WordRead α) (step : Read α) : Prop :=
  ∀ c : Cursor, c.In c.order bytes 0 →
    words (c.window bytes) = Read.inWords bytes (step c) ∧
      (Read.left (step c)).In c.order bytes c.offset

theorem mirrors_pure
    (a : α) :
    Mirrors bytes (pure a) (pure a) :=
  fun _ inside => ⟨rfl, inside.from_here⟩

theorem mirrors_corrupt
    (offset : Nat) (cause : Corruption) :
    Mirrors bytes (corrupt offset cause : WordRead α) (Read.corrupt offset cause) :=
  fun _ inside => ⟨rfl, inside.from_here⟩

theorem Mirrors.bind
    {words : WordRead α} {step : Read α} {words' : α → WordRead β} {step' : α → Read β}
    (h : Mirrors bytes words step)
    (h' : ∀ a, Mirrors bytes (words' a) (step' a)) :
    Mirrors bytes (words >>= words') (step >>= step') := by
  intro c inside
  obtain ⟨same, behind⟩ := h c inside
  cases done : step c with
  | ok a between =>
      rw [done] at same behind
      have order : between.order = c.order := behind.order_eq
      obtain ⟨same', behind'⟩ := h' a between (order ▸ behind.of_le (Nat.zero_le _))
      rw [bind_of_eq_ok same, bind_of_eq_ok done]
      exact ⟨same', order ▸ behind'.of_le behind.low_le⟩
  | error e left =>
      rw [done] at same behind
      rw [bind_of_eq_error same, bind_of_eq_error done]
      exact ⟨rfl, behind⟩

section Arithmetic

variable {a b : UInt64} {w : Window}

theorem sum_of_lt
    (h : a.toNat + b.toNat < UInt64.size) :
    sum a b w = .ok (a + b) w ∧ (a + b).toNat = a.toNat + b.toNat := by
  have exact_sum : (a + b).toNat = a.toNat + b.toNat := by
    rw [UInt64.toNat_add]
    exact Nat.mod_eq_of_lt h
  have large : ¬ a + b < a := by
    rw [UInt64.lt_iff_toNat_lt, exact_sum]
    omega
  refine ⟨?_, exact_sum⟩
  rw [sum, if_neg large]
  rfl

theorem difference_of_le
    (h : b.toNat ≤ a.toNat) :
    difference a b w = .ok (a - b) w ∧ (a - b).toNat = a.toNat - b.toNat := by
  have small : ¬ a < b := by
    rw [UInt64.lt_iff_toNat_lt]
    omega
  refine ⟨?_, UInt64.toNat_sub_of_le a b (UInt64.le_iff_toNat_le.2 h)⟩
  rw [difference, if_neg small]
  rfl

/-- The clipped product is the product of the sizes, clipped. -/
theorem toNat_saturated
    (a b : UInt64) :
    (saturated a b).toNat = Size.mul a.toNat b.toNat := by
  have largest : (0xFFFFFFFFFFFFFFFF : UInt64).toNat = Size.largest := rfl
  have fits_iff : (b = 0 ∨ a ≤ 0xFFFFFFFFFFFFFFFF / b) ↔ a.toNat * b.toNat ≤ Size.largest := by
    rcases Nat.eq_zero_or_pos b.toNat with zero | positive
    · have b_zero : b = 0 := UInt64.toNat_inj.1 zero
      simp [b_zero]
    · have nonzero : b ≠ 0 := by
        rintro rfl
        exact Nat.lt_irrefl 0 positive
      rw [UInt64.le_iff_toNat_le, UInt64.toNat_div, largest, Nat.le_div_iff_mul_le positive]
      simp [nonzero]
  unfold saturated Size.mul Size.clip
  simp only [fits_iff]
  split_ifs with fits
  · have below : a.toNat * b.toNat < 2 ^ 64 := Nat.lt_of_le_of_lt fits (by decide)
    rw [UInt64.toNat_mul, Nat.mod_eq_of_lt below, Nat.min_eq_left fits]
  · rw [largest, Nat.min_eq_right (Nat.le_of_not_le fits)]

/-- 2⁶¹ items of eight bytes each are as many bytes as no word can count. -/
example : saturated 0x2000000000000000 8 = 0xFFFFFFFFFFFFFFFF := by decide

/-- A slice whose ends are in order and in the bytes. -/
theorem slice_of_le
    (start stop : UInt64)
    (ordered : start.toNat ≤ stop.toNat)
    (within : stop.toNat ≤ w.length.toNat) :
    slice start stop w = .ok ((w.bytes.drop start.toNat).take (stop.toNat - start.toNat)) w := by
  have inside : ¬ (stop < start ∨ w.length < stop) := by
    rw [UInt64.lt_iff_toNat_lt, UInt64.lt_iff_toNat_lt]
    omega
  rw [slice, get_bind, if_neg inside,
    UInt64.toNat_sub_of_le stop start (UInt64.le_iff_toNat_le.2 ordered)]
  rfl

end Arithmetic

section Mirrors

variable (short : bytes.length < UInt64.size)
include short

theorem toNat_position
    (inside : c.In c.order bytes 0) :
    (c.window bytes).position.toNat = c.offset :=
  UInt64.toNat_ofNat_of_lt' (Nat.lt_of_le_of_lt inside.offset_le short)

theorem toNat_length
    (c : Cursor) :
    (c.window bytes).length.toNat = bytes.length :=
  UInt64.toNat_ofNat_of_lt' short

/-- The subtraction gives how many bytes are left. -/
theorem remaining_eq
    (inside : c.In c.order bytes 0) :
    ∃ n : UInt64, remaining (c.window bytes) = .ok n (c.window bytes) ∧ n.toNat = c.remaining := by
  have position := toNat_position short inside
  have length := toNat_length short c
  have whole := inside.offset_add_remaining
  obtain ⟨done, exact_difference⟩ := difference_of_le (a := (c.window bytes).length)
    (b := (c.window bytes).position) (w := c.window bytes) (by omega)
  refine ⟨_, ?_, exact_difference.trans (by omega)⟩
  rw [remaining, get_bind]
  exact done

theorem mirrors_offset : Mirrors bytes offset Read.offset := by
  intro c inside
  refine ⟨?_, inside.from_here⟩
  have position := toNat_position short inside
  change EStateM.Result.ok (c.window bytes).position.toNat (c.window bytes) = _
  rw [position]
  rfl

theorem mirrors_take
    (n : UInt64) :
    Mirrors bytes (take n) (Read.take n.toNat) := by
  intro c inside
  obtain ⟨left, subtracted, left_eq⟩ := remaining_eq short inside
  have position := toNat_position short inside
  have whole := inside.offset_add_remaining
  rw [take, get_bind, bind_of_eq_ok subtracted]
  by_cases enough : n.toNat ≤ c.remaining
  · have fits : ¬ left < n := by
      rw [UInt64.lt_iff_toNat_lt]
      omega
    obtain ⟨added, stop_eq⟩ := sum_of_lt (a := (c.window bytes).position) (b := n)
      (w := c.window bytes) (by omega)
    have length := toNat_length short c
    have cut := slice_of_le (w := c.window bytes) (c.window bytes).position
      ((c.window bytes).position + n) (by omega) (by omega)
    have taken := Read.take_of_le enough
    have next : UInt64.ofNat c.offset + n = UInt64.ofNat (c.offset + n.toNat) := by
      rw [UInt64.ofNat_add, UInt64.ofNat_toNat]
    rw [if_neg fits, taken]
    refine ⟨?_, inside.from_here.of_covers (Read.take_eq_ok_iff.1 taken).2⟩
    rw [stop_eq, position, Nat.add_sub_cancel_left] at cut
    change (sum _ n >>= _) _ = _
    rw [bind_of_eq_ok added, bind_of_eq_ok cut, set_bind]
    change EStateM.Result.ok ((bytes.drop c.offset).take n.toNat)
      (⟨bytes, UInt64.ofNat c.offset + n, c.order⟩ : Window) = _
    rw [← inside.rest, next]
    rfl
  · have large : left < n := by
      rw [UInt64.lt_iff_toNat_lt]
      omega
    rw [if_pos large, Read.take_of_lt (Nat.lt_of_not_le enough)]
    refine ⟨?_, inside.from_here⟩
    rw [position, left_eq]
    rfl

theorem mirrors_word
    {width : Nat}
    (narrow : width < UInt64.size) :
    Mirrors bytes (word (UInt64.ofNat width)) (Read.word width) := by
  have taken := mirrors_take short (UInt64.ofNat width)
  rw [UInt64.toNat_ofNat_of_lt' narrow] at taken
  exact taken.bind fun _ c inside => ⟨rfl, inside.from_here⟩

theorem mirrors_byte : Mirrors bytes byte Read.byte :=
  (mirrors_word short (by decide)).bind fun _ => mirrors_pure _

theorem mirrors_word16 : Mirrors bytes word16 Read.word16 :=
  (mirrors_word short (by decide)).bind fun _ => mirrors_pure _

theorem mirrors_word32 : Mirrors bytes word32 Read.word32 :=
  (mirrors_word short (by decide)).bind fun _ => mirrors_pure _

theorem mirrors_word64 : Mirrors bytes word64 Read.word64 :=
  (mirrors_word short (by decide)).bind fun _ => mirrors_pure _

theorem mirrors_boolean : Mirrors bytes boolean Read.boolean := by
  refine (mirrors_offset short).bind fun start => (mirrors_byte short).bind fun stored => ?_
  split_ifs
  · exact mirrors_pure false
  · exact mirrors_pure true
  · exact mirrors_corrupt start _

theorem mirrors_utf8
    (n : UInt64) :
    Mirrors bytes (utf8 n) (Read.utf8 n.toNat) := by
  refine (mirrors_offset short).bind fun start => (mirrors_take short n).bind fun taken => ?_
  cases String.fromUTF8? taken.toByteArray with
  | none =>
      exact mirrors_corrupt start .invalidText
  | some value =>
      exact mirrors_pure value

theorem mirrors_character : Mirrors bytes character Read.character := by
  refine (mirrors_offset short).bind fun start => (mirrors_byte short).bind fun lead => ?_
  cases announced : Read.leadByte lead with
  | none =>
      exact mirrors_corrupt start .invalidText
  | some kind =>
      obtain ⟨following, bits, least⟩ := kind
      have few : following < UInt64.size := by
        rcases Read.leadByte_eq_some_iff.1 announced with
          ⟨_, rfl, _⟩ | ⟨_, rfl, _⟩ | ⟨_, rfl, _⟩ | ⟨_, rfl, _⟩ <;> decide
      have taken := mirrors_take short (UInt64.ofNat following)
      rw [UInt64.toNat_ofNat_of_lt' few] at taken
      refine taken.bind fun others => ?_
      cases Read.continued bits others with
      | none =>
          exact mirrors_corrupt start .invalidText
      | some code =>
          dsimp only
          split_ifs
          · exact mirrors_corrupt start .invalidText
          · exact mirrors_pure (Char.ofNat code)
          · exact mirrors_corrupt start (.invalidCharacter code)

theorem mirrors_checkCount
    (start : Nat) (what : String) (count least : UInt64) :
    Mirrors bytes (checkCount start what count least)
      (Read.checkCount start what count.toNat least.toNat) := by
  intro c inside
  obtain ⟨left, subtracted, left_eq⟩ := remaining_eq short inside
  have least_eq : (if least = 0 then 1 else least).toNat = max least.toNat 1 := by
    split_ifs with zero
    · rw [zero]
      rfl
    · have positive : least.toNat ≠ 0 := fun same => zero (UInt64.toNat_inj.1 same)
      omega
  have needed : (saturated count (if least = 0 then 1 else least)).toNat =
      Size.mul count.toNat (max least.toNat 1) := by
    rw [toNat_saturated, least_eq]
  rw [checkCount, bind_of_eq_ok subtracted]
  by_cases fits : Size.mul count.toNat (max least.toNat 1) ≤ c.remaining
  · have small : ¬ left < saturated count (if least = 0 then 1 else least) := by
      rw [UInt64.lt_iff_toNat_lt]
      omega
    rw [if_neg small, Read.checkCount_eq_ok_iff.2 ⟨rfl, rfl, fits⟩]
    exact ⟨rfl, inside.from_here⟩
  · have large : left < saturated count (if least = 0 then 1 else least) := by
      rw [UInt64.lt_iff_toNat_lt]
      omega
    rw [if_pos large, Read.checkCount_of_lt (Nat.lt_of_not_le fits)]
    refine ⟨?_, inside.from_here⟩
    rw [left_eq]
    rfl

end Mirrors

end WordRead
end StackCode
