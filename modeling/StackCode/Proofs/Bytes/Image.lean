import StackCode.Bytes.Cursor
import StackCode.Bytes.Sink

/-!
# Images

The image of a value is the sequence of bytes that stands for it in a code image. It depends on the
byte order, so an image is a function of the order: one image describes both written forms of a
value, and whatever is proved of it holds in either order.

A cursor *covers* an image when the bytes of the image come next. Reading and writing are stated
through this one notion, so that the layout of a value is spelled out once.

**Results.**
* `Cursor.covers_append_iff`: covering a sequence of images is covering them one behind the other.
* `Cursor.Covers.behind_unique`: the image determines the cursor behind it.
-/

namespace StackCode

/-- The bytes of a value in each byte order. -/
def Image : Type := ByteOrder → List UInt8

namespace Image

instance : Append Image := ⟨fun x y order => x order ++ y order⟩

/-- Bytes that are the same in both orders. -/
def raw (bytes : List UInt8) : Image := fun _ => bytes

/-- The lowest `width` bytes of a number. -/
def word (width n : Nat) : Image := fun order => order.encode width n

/-- A single byte. -/
def byte (value : UInt8) : Image := word 1 value.toNat

/-- A boolean, as zero or one. -/
def boolean (value : Bool) : Image := byte (if value then 1 else 0)

/-- Text behind its length as a word of eight bytes. -/
def text (value : String) : Image := word 8 value.utf8ByteSize ++ raw (Write.utf8 value)

/-- Text behind its length as a byte. -/
def shortText (value : String) : Image := word 1 value.utf8ByteSize ++ raw (Write.utf8 value)

section Tables

variable {α : Type}

/-- The images of some items, one behind the other. -/
def concat (item : α → Image) : List α → Image
  | [] => raw []
  | first :: others => item first ++ concat item others

/-- The number of items as a word of eight bytes, then the items. -/
def table (item : α → Image) (items : List α) : Image :=
  word 8 items.length ++ concat item items

/-- The number of items as a byte, then the items. -/
def shortTable (item : α → Image) (items : List α) : Image :=
  word 1 items.length ++ concat item items

end Tables

@[simp] theorem append_apply
    (x y : Image) (order : ByteOrder) :
    (x ++ y) order = x order ++ y order := rfl

@[simp] theorem raw_apply
    (bytes : List UInt8) (order : ByteOrder) :
    raw bytes order = bytes := rfl

@[simp] theorem raw_append
    (first second : List UInt8) :
    raw (first ++ second) = raw first ++ raw second := rfl

@[simp] theorem length_word
    (width n : Nat) (order : ByteOrder) :
    (word width n order).length = width :=
  order.length_encode width n

@[simp] theorem length_byte
    (value : UInt8) (order : ByteOrder) :
    (byte value order).length = 1 :=
  length_word 1 value.toNat order

/-- A single byte has no order. -/
theorem byte_eq_raw
    (value : UInt8) :
    byte value = raw [value] := by
  funext order
  cases order <;> simp [byte, word, ByteOrder.encode, ByteOrder.leastFirst]

/-- A number and its remainder modulo the words of a width have one image of that width. -/
theorem word_mod
    (width n : Nat) :
    word width (n % Nat.pow 256 width) = word width n := by
  funext order
  have h := order.encode_decode (order.encode width n)
  rw [order.length_encode, order.decode_encode] at h
  exact h

theorem word_one
    (n : Nat) :
    word 1 n = raw [UInt8.ofNat n] := by
  rw [← byte_eq_raw, byte, UInt8.toNat_ofNat', ← word_mod 1 n]

theorem concat_append
    {α : Type} (item : α → Image) (first second : List α) :
    concat item (first ++ second) = concat item first ++ concat item second := by
  induction first with
  | nil =>
      rfl
  | cons a first ih =>
      funext order
      simp [concat, ih]

/-- The bytes of a text are as many as its length says. -/
theorem length_utf8
    (value : String) :
    (Write.utf8 value).length = value.utf8ByteSize := by
  simp [Write.utf8]

/-- The items of a table take at least as many bytes as there are items of the least size. -/
theorem mul_le_length_concat
    {α : Type} {item : α → Image} {least : Nat} {order : ByteOrder} :
    ∀ {items : List α},
      (∀ a ∈ items, least ≤ (item a order).length) →
      items.length * least ≤ (concat item items order).length
  | [], _ => by
      simp
  | first :: others, h => by
      have head : least ≤ (item first order).length := h first List.mem_cons_self
      have tail : others.length * least ≤ (concat item others order).length :=
        mul_le_length_concat fun a ha => h a (List.mem_cons_of_mem _ ha)
      have whole : (first :: others).length * least = least + others.length * least := by
        rw [List.length_cons, Nat.succ_mul, Nat.add_comm]
      rw [whole, concat, append_apply, List.length_append]
      omega

end Image

namespace Cursor

/-- The bytes of an image come next, and the other cursor stands behind them. -/
structure Covers (c : Cursor) (image : Image) (behind : Cursor) : Prop where
  rest : c.rest = image c.order ++ behind.rest
  offset : behind.offset = c.offset + (image c.order).length
  order : behind.order = c.order

/-- An image determines the cursor behind it. -/
theorem Covers.behind_unique
    {c b b' : Cursor} {image : Image}
    (h : c.Covers image b)
    (h' : c.Covers image b') :
    b = b' := by
  have rest : b.rest = b'.rest := List.append_cancel_left (h.rest.symm.trans h'.rest)
  have offset : b.offset = b'.offset := h.offset.trans h'.offset.symm
  have order : b.order = b'.order := h.order.trans h'.order.symm
  cases b
  cases b'
  simp_all

/-- Covering no bytes is standing still. -/
@[simp] theorem covers_raw_nil_iff
    {c behind : Cursor} :
    c.Covers (.raw []) behind ↔ behind = c := by
  constructor
  · intro h
    exact h.behind_unique ⟨rfl, rfl, rfl⟩
  · rintro rfl
    exact ⟨rfl, rfl, rfl⟩

/-- Two images one behind the other are covered one behind the other. -/
theorem covers_append_iff
    {c behind : Cursor} {x y : Image} :
    c.Covers (x ++ y) behind ↔
      ∃ between, c.Covers x between ∧ between.Covers y behind := by
  constructor
  · intro h
    refine ⟨⟨y c.order ++ behind.rest, c.offset + (x c.order).length, c.order⟩, ?_, ?_⟩
    · exact ⟨by rw [h.rest, Image.append_apply, List.append_assoc], rfl, rfl⟩
    · refine ⟨rfl, ?_, h.order⟩
      rw [h.offset, Image.append_apply, List.length_append, Nat.add_assoc]
  · rintro ⟨between, hx, hy⟩
    refine ⟨?_, ?_, hy.order.trans hx.order⟩
    · rw [hx.rest, hy.rest, hx.order, Image.append_apply, List.append_assoc]
    · rw [hy.offset, hx.offset, hx.order, Image.append_apply, List.length_append, Nat.add_assoc]

/-- The bytes of an image are among those that are left. -/
theorem Covers.length_le_remaining
    {c behind : Cursor} {image : Image}
    (h : c.Covers image behind) :
    (image c.order).length ≤ c.remaining := by
  rw [remaining, h.rest, List.length_append]
  omega

/-- No more bytes are left behind an image than in front of it. -/
theorem Covers.remaining_le
    {c behind : Cursor} {image : Image}
    (h : c.Covers image behind) :
    behind.remaining ≤ c.remaining := by
  rw [remaining, remaining, h.rest, List.length_append]
  exact Nat.le_add_left _ _

end Cursor
end StackCode
