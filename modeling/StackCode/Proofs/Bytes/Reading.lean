import StackCode.Proofs.Bytes.Image
import StackCode.Proofs.Step

/-!
# What reading returns

A step that reads succeeds exactly when the image of some value comes next, and then returns this
value and stands behind the image. Each statement below is an equivalence: from left to right it
says that nothing but the image of a value is accepted, from right to left that every image is
read back.

The count of a table is checked against the bytes that are left before any item is read. The check
never refuses an image, because every item takes at least the bytes that the check reckons with.

**Results.**
* `text_eq_ok_iff`, `boolean_eq_ok_iff`, `word64_eq_ok_iff` and their like, for the primitives.
* `table_eq_ok_iff`, `shortTable_eq_ok_iff`, for tables of items that have such an equivalence.
-/

namespace StackCode
namespace Read

open Step

variable {α : Type} {c behind : Cursor}

@[simp] theorem corrupt_ne_ok
    {start : Nat} {cause : Corruption} {a : α} :
    (corrupt start cause : Read α) c ≠ .ok a behind :=
  throw_ne_ok

@[simp] theorem offset_eq_ok_iff
    {n : Nat} :
    offset c = .ok n behind ↔ c.offset = n ∧ c = behind := by
  change EStateM.Result.ok c.offset c = EStateM.Result.ok n behind ↔ _
  simp

/-- A step that starts by asking for the offset goes on with the offset. -/
theorem offset_bind
    {next : Nat → Read α} :
    (offset >>= next) c = next c.offset c := rfl

/-- As many bytes as are left can be taken. -/
theorem take_of_le
    {n : Nat}
    (h : n ≤ c.remaining) :
    take n c = .ok (c.rest.take n) (c.skip n) := by
  have enough : c.has n = true := Cursor.has_iff.2 h
  rw [take, get_bind, enough]
  rfl

/-- More bytes than are left cannot be taken, and the cursor stays. -/
theorem take_of_lt
    {n : Nat}
    (h : c.remaining < n) :
    take n c = .error (.corrupt c.offset (.unexpectedEnd n c.remaining)) c := by
  have short : c.has n = false := by
    rw [← Bool.not_eq_true, Cursor.has_iff]
    omega
  rw [take, get_bind, short]
  rfl

theorem take_eq_ok_iff
    {n : Nat} {bytes : List UInt8} :
    take n c = .ok bytes behind ↔ bytes.length = n ∧ c.Covers (.raw bytes) behind := by
  constructor
  · intro h
    by_cases enough : n ≤ c.remaining
    · have length : (c.rest.take n).length = n := by
        rw [List.length_take]
        exact Nat.min_eq_left enough
      rw [take_of_le enough] at h
      cases h
      refine ⟨length, (List.take_append_drop n c.rest).symm, ?_, rfl⟩
      rw [Image.raw_apply, length]
      rfl
    · rw [take_of_lt (Nat.lt_of_not_le enough)] at h
      cases h
  · rintro ⟨rfl, h⟩
    have enough : bytes.length ≤ c.remaining := h.length_le_remaining
    have rest : c.rest = bytes ++ behind.rest := h.rest
    rw [take_of_le enough]
    congr 1
    · rw [rest, List.take_left]
    · apply Cursor.Covers.behind_unique _ h
      exact ⟨by rw [Cursor.skip, rest, List.drop_left]; rfl, rfl, rfl⟩

/-- A word is read from its image and nothing else. -/
theorem word_eq_ok_iff
    {width n : Nat} :
    word width c = .ok n behind ↔ n < Nat.pow 256 width ∧ c.Covers (.word width n) behind := by
  have step : word width c = .ok n behind ↔
      ∃ bytes, (bytes.length = width ∧ c.Covers (.raw bytes) behind) ∧
        behind.order.decode bytes = n := by
    simp only [word, bind_eq_ok_iff, take_eq_ok_iff, get_eq_ok_iff, pure_eq_ok_iff]
    constructor
    · rintro ⟨bytes, between, taken, _, _, ⟨rfl, rfl⟩, decoded, rfl⟩
      exact ⟨bytes, taken, decoded⟩
    · rintro ⟨bytes, taken, decoded⟩
      exact ⟨bytes, behind, taken, behind, behind, ⟨rfl, rfl⟩, decoded, rfl⟩
  rw [step]
  constructor
  · rintro ⟨bytes, ⟨length, h⟩, decoded⟩
    have image : Image.word width n c.order = bytes := by
      rw [← decoded, ← length, h.order]
      exact c.order.encode_decode bytes
    have below : n % Nat.pow 256 width = n := by
      rw [← decoded, h.order, ← c.order.decode_encode, ← length, c.order.encode_decode]
    refine ⟨?_, ?_⟩
    · rw [← below]
      exact Nat.mod_lt n (Nat.pow_pos (by decide))
    · exact ⟨by rw [image]; exact h.rest, by rw [image]; exact h.offset, h.order⟩
  · rintro ⟨below, h⟩
    refine ⟨c.order.encode width n, ⟨c.order.length_encode width n, ?_⟩, ?_⟩
    · exact ⟨h.rest, h.offset, h.order⟩
    · rw [h.order, c.order.decode_encode]
      exact Nat.mod_eq_of_lt below

/-- A machine word is read through the number that it stands for. -/
theorem map_word_eq_ok_iff
    {ω : Type} {width : Nat} {ofNat : Nat → ω} {toNat : ω → Nat} {w : ω}
    (ofNat_toNat : ∀ v, ofNat (toNat v) = v)
    (toNat_ofNat : ∀ n, n < Nat.pow 256 width → toNat (ofNat n) = n)
    (toNat_lt : ∀ v, toNat v < Nat.pow 256 width) :
    (do return ofNat (← word width) : Read ω) c = .ok w behind ↔
      c.Covers (.word width (toNat w)) behind := by
  simp only [bind_eq_ok_iff, word_eq_ok_iff, pure_eq_ok_iff]
  constructor
  · rintro ⟨n, between, ⟨below, h⟩, rfl, rfl⟩
    rw [toNat_ofNat n below]
    exact h
  · intro h
    exact ⟨toNat w, behind, ⟨toNat_lt w, h⟩, ofNat_toNat w, rfl⟩

theorem byte_eq_ok_iff
    {b : UInt8} :
    byte c = .ok b behind ↔ c.Covers (.byte b) behind :=
  map_word_eq_ok_iff (fun _ => UInt8.ofNat_toNat) (fun _ h => UInt8.toNat_ofNat_of_lt' h)
    UInt8.toNat_lt

theorem word16_eq_ok_iff
    {w : UInt16} :
    word16 c = .ok w behind ↔ c.Covers (.word 2 w.toNat) behind :=
  map_word_eq_ok_iff (fun _ => UInt16.ofNat_toNat) (fun _ h => UInt16.toNat_ofNat_of_lt' h)
    UInt16.toNat_lt

theorem word32_eq_ok_iff
    {w : UInt32} :
    word32 c = .ok w behind ↔ c.Covers (.word 4 w.toNat) behind :=
  map_word_eq_ok_iff (fun _ => UInt32.ofNat_toNat) (fun _ h => UInt32.toNat_ofNat_of_lt' h)
    UInt32.toNat_lt

theorem word64_eq_ok_iff
    {w : UInt64} :
    word64 c = .ok w behind ↔ c.Covers (.word 8 w.toNat) behind :=
  map_word_eq_ok_iff (fun _ => UInt64.ofNat_toNat) (fun _ h => UInt64.toNat_ofNat_of_lt' h)
    UInt64.toNat_lt

theorem int64_eq_ok_iff
    {i : Int64} :
    int64 c = .ok i behind ↔ c.Covers (.word 8 i.toUInt64.toNat) behind := by
  simp only [int64, bind_eq_ok_iff, word64_eq_ok_iff, pure_eq_ok_iff]
  constructor
  · rintro ⟨w, between, h, rfl, rfl⟩
    exact h
  · intro h
    exact ⟨i.toUInt64, behind, h, rfl, rfl⟩

theorem real_eq_ok_iff
    {x : Binary64} :
    real c = .ok x behind ↔ c.Covers (.word 8 x.bits.toNat) behind := by
  simp only [real, bind_eq_ok_iff, word64_eq_ok_iff, pure_eq_ok_iff]
  constructor
  · rintro ⟨w, between, h, rfl, rfl⟩
    exact h
  · intro h
    exact ⟨x.bits, behind, h, rfl, rfl⟩

/-- The only forms of a boolean are zero and one. -/
theorem boolean_eq_ok_iff
    {b : Bool} :
    boolean c = .ok b behind ↔ c.Covers (.boolean b) behind := by
  simp only [boolean, bind_eq_ok_iff, offset_eq_ok_iff, byte_eq_ok_iff]
  constructor
  · rintro ⟨_, _, ⟨rfl, rfl⟩, stored, between, h, done⟩
    split at done
    · next zero =>
      obtain ⟨rfl, rfl⟩ := pure_eq_ok_iff.1 done
      subst zero
      exact h
    · split at done
      · next one =>
        obtain ⟨rfl, rfl⟩ := pure_eq_ok_iff.1 done
        subst one
        exact h
      · exact absurd done corrupt_ne_ok
  · intro h
    refine ⟨c.offset, c, ⟨rfl, rfl⟩, if b then 1 else 0, behind, h, ?_⟩
    cases b <;> rfl

/-- A sequence of bytes is read as a text when it is the text in UTF-8. -/
theorem fromUTF8?_eq_some_iff
    {bytes : List UInt8} {value : String} :
    String.fromUTF8? bytes.toByteArray = some value ↔ bytes = Write.utf8 value := by
  have same : bytes = Write.utf8 value ↔ bytes.toByteArray = value.toByteArray := by
    rw [Write.utf8, ByteArray.ext_iff, List.data_toByteArray]
    constructor
    · rintro rfl
      rfl
    · intro h
      rw [String.toUTF8_eq_toByteArray, ← h]
  rw [same, String.fromUTF8?]
  split
  · next valid =>
    constructor
    · intro h
      rw [← Option.some.inj h]
      rfl
    · intro h
      rw [Option.some.injEq, ← String.toByteArray_inj]
      exact h
  · next invalid =>
    constructor
    · intro h
      cases h
    · intro h
      exact absurd (h ▸ value.isValidUTF8) invalid

theorem utf8_eq_ok_iff
    {n : Nat} {value : String} :
    utf8 n c = .ok value behind ↔
      value.utf8ByteSize = n ∧ c.Covers (.raw (Write.utf8 value)) behind := by
  simp only [utf8, bind_eq_ok_iff, offset_eq_ok_iff, take_eq_ok_iff]
  constructor
  · rintro ⟨_, _, ⟨rfl, rfl⟩, bytes, between, ⟨length, h⟩, done⟩
    cases found : String.fromUTF8? bytes.toByteArray with
    | none =>
        simp [found] at done
    | some text =>
        simp only [found, pure_eq_ok_iff] at done
        obtain ⟨rfl, rfl⟩ := done
        rw [fromUTF8?_eq_some_iff.1 found] at length h
        exact ⟨(Image.length_utf8 _).symm.trans length, h⟩
  · rintro ⟨length, h⟩
    refine ⟨c.offset, c, ⟨rfl, rfl⟩, Write.utf8 value, behind,
      ⟨(Image.length_utf8 value).trans length, h⟩, ?_⟩
    rw [fromUTF8?_eq_some_iff.2 rfl]
    rfl

theorem text_eq_ok_iff
    {value : String} :
    text c = .ok value behind ↔
      value.utf8ByteSize < UInt64.size ∧ c.Covers (.text value) behind := by
  simp only [text, bind_eq_ok_iff, word64_eq_ok_iff, utf8_eq_ok_iff, Image.text,
    Cursor.covers_append_iff]
  constructor
  · rintro ⟨w, between, h, length, h'⟩
    rw [← length] at h
    exact ⟨by rw [length]; exact w.toNat_lt, between, h, h'⟩
  · rintro ⟨below, between, h, h'⟩
    have size : (UInt64.ofNat value.utf8ByteSize).toNat = value.utf8ByteSize :=
      UInt64.toNat_ofNat_of_lt' below
    exact ⟨UInt64.ofNat value.utf8ByteSize, between, by rw [size]; exact h, size.symm, h'⟩

theorem shortText_eq_ok_iff
    {value : String} :
    shortText c = .ok value behind ↔
      value.utf8ByteSize ≤ 255 ∧ c.Covers (.shortText value) behind := by
  simp only [shortText, bind_eq_ok_iff, byte_eq_ok_iff, utf8_eq_ok_iff, Image.shortText,
    Cursor.covers_append_iff]
  constructor
  · rintro ⟨b, between, h, length, h'⟩
    have below : b.toNat < 256 := b.toNat_lt
    rw [Image.byte, ← length] at h
    exact ⟨by omega, between, h, h'⟩
  · rintro ⟨below, between, h, h'⟩
    have size : (UInt8.ofNat value.utf8ByteSize).toNat = value.utf8ByteSize :=
      UInt8.toNat_ofNat_of_lt' (Nat.lt_succ_of_le below)
    exact ⟨UInt8.ofNat value.utf8ByteSize, between, by rw [Image.byte, size]; exact h,
      size.symm, h'⟩

/-- A step that reads accepts exactly the images of the valid values of a type. -/
def Accepts (item : Read α) (valid : α → Prop) (image : α → Image) : Prop :=
  ∀ (c : Cursor) (a : α) (behind : Cursor),
    item c = .ok a behind ↔ valid a ∧ c.Covers (image a) behind

theorem checkCount_eq_ok_iff
    {start count least n : Nat} {what : String} :
    checkCount start what count least c = .ok n behind ↔
      count = n ∧ c = behind ∧ Size.mul count (max least 1) ≤ c.remaining := by
  simp only [checkCount, bind_eq_ok_iff, get_eq_ok_iff]
  constructor
  · rintro ⟨_, _, ⟨rfl, rfl⟩, done⟩
    split at done
    · obtain ⟨_, _, refused, _⟩ := bind_eq_ok_iff.1 done
      exact absurd refused corrupt_ne_ok
    · next fits =>
      obtain ⟨rfl, rfl⟩ := pure_eq_ok_iff.1 done
      exact ⟨rfl, rfl, Cursor.has_iff.1 (by simpa using fits)⟩
  · rintro ⟨rfl, rfl, fits⟩
    refine ⟨c, c, ⟨rfl, rfl⟩, ?_⟩
    rw [if_neg (by simpa using Cursor.has_iff.2 fits)]
    rfl

/-- A count of more items than the bytes that are left can hold is refused, and the cursor stays. -/
theorem checkCount_of_lt
    {start count least : Nat} {what : String}
    (h : c.remaining < Size.mul count (max least 1)) :
    checkCount start what count least c =
      .error (.corrupt start (.countTooLarge what count c.remaining)) c := by
  have short : c.has (Size.mul count (max least 1)) = false := by
    rw [← Bool.not_eq_true, Cursor.has_iff]
    omega
  rw [checkCount, get_bind, short]
  rfl

theorem count_eq_ok_iff
    {least n : Nat} {what : String} :
    count what least c = .ok n behind ↔
      (n < UInt64.size ∧ c.Covers (.word 8 n) behind) ∧
        Size.mul n (max least 1) ≤ behind.remaining := by
  simp only [count, bind_eq_ok_iff, offset_eq_ok_iff, word64_eq_ok_iff, checkCount_eq_ok_iff]
  constructor
  · rintro ⟨_, _, ⟨rfl, rfl⟩, w, between, h, rfl, rfl, fits⟩
    exact ⟨⟨w.toNat_lt, h⟩, fits⟩
  · rintro ⟨⟨below, h⟩, fits⟩
    have same : (UInt64.ofNat n).toNat = n := UInt64.toNat_ofNat_of_lt' below
    exact ⟨c.offset, c, ⟨rfl, rfl⟩, UInt64.ofNat n, behind, by rw [same]; exact h, same, rfl,
      by rw [same]; exact fits⟩

theorem shortCount_eq_ok_iff
    {least n : Nat} {what : String} :
    shortCount what least c = .ok n behind ↔
      (n ≤ 255 ∧ c.Covers (.word 1 n) behind) ∧
        Size.mul n (max least 1) ≤ behind.remaining := by
  simp only [shortCount, bind_eq_ok_iff, offset_eq_ok_iff, byte_eq_ok_iff, checkCount_eq_ok_iff]
  constructor
  · rintro ⟨_, _, ⟨rfl, rfl⟩, b, between, h, rfl, rfl, fits⟩
    exact ⟨⟨Nat.le_of_lt_succ b.toNat_lt, h⟩, fits⟩
  · rintro ⟨⟨below, h⟩, fits⟩
    have same : (UInt8.ofNat n).toNat = n :=
      UInt8.toNat_ofNat_of_lt' (Nat.lt_succ_of_le below)
    exact ⟨c.offset, c, ⟨rfl, rfl⟩, UInt8.ofNat n, behind, by rw [Image.byte, same]; exact h,
      same, rfl, by rw [same]; exact fits⟩

section Tables

variable {item : Read α} {valid : α → Prop} {image : α → Image}

theorem repeated_eq_ok_iff
    (h : Accepts item valid image) :
    ∀ {n : Nat} {items : List α} {c behind : Cursor},
      repeated item n c = .ok items behind ↔
        items.length = n ∧ (∀ a ∈ items, valid a) ∧ c.Covers (.concat image items) behind
  | 0, items, c, behind => by
      rw [repeated, pure_eq_ok_iff]
      constructor
      · rintro ⟨rfl, rfl⟩
        exact ⟨rfl, by simp, Cursor.covers_raw_nil_iff.2 rfl⟩
      · rintro ⟨length, _, covers⟩
        obtain rfl := List.length_eq_zero_iff.1 length
        exact ⟨rfl, (Cursor.covers_raw_nil_iff.1 covers).symm⟩
  | n + 1, items, c, behind => by
      simp only [repeated, bind_eq_ok_iff, pure_eq_ok_iff]
      constructor
      · rintro ⟨first, between, head, others, _, tail, rfl, rfl⟩
        obtain ⟨valid_first, covers_first⟩ := (h _ _ _).1 head
        obtain ⟨length, valid_others, covers_others⟩ := (repeated_eq_ok_iff h).1 tail
        refine ⟨congrArg Nat.succ length, ?_, ?_⟩
        · exact List.forall_mem_cons.2 ⟨valid_first, valid_others⟩
        · exact Cursor.covers_append_iff.2 ⟨between, covers_first, covers_others⟩
      · rintro ⟨length, valid_items, covers⟩
        obtain ⟨first, others, rfl⟩ := List.exists_cons_of_length_eq_add_one length
        obtain ⟨valid_first, valid_others⟩ := List.forall_mem_cons.1 valid_items
        obtain ⟨between, covers_first, covers_others⟩ := Cursor.covers_append_iff.1 covers
        refine ⟨first, between, (h _ _ _).2 ⟨valid_first, covers_first⟩, others, behind, ?_,
          rfl, rfl⟩
        exact (repeated_eq_ok_iff h).2 ⟨Nat.succ.inj length, valid_others, covers_others⟩

/-- The check of a count lets every table pass whose items take the bytes it reckons with. -/
theorem mul_length_le_remaining
    {least : Nat} {items : List α} {between behind : Cursor}
    (size : ∀ a, valid a → ∀ order, max least 1 ≤ (image a order).length)
    (valid_items : ∀ a ∈ items, valid a)
    (covers : between.Covers (.concat image items) behind) :
    Size.mul items.length (max least 1) ≤ between.remaining :=
  calc Size.mul items.length (max least 1)
    _ ≤ items.length * max least 1 := Size.clip_le _
    _ ≤ (Image.concat image items between.order).length :=
        Image.mul_le_length_concat fun a ha => size a (valid_items a ha) between.order
    _ ≤ between.remaining := covers.length_le_remaining

/-- A table is read from its image and nothing else. -/
theorem table_eq_ok_iff
    {what : String} {items : List α}
    (least : Nat)
    (h : Accepts item valid image)
    (size : ∀ a, valid a → ∀ order, max least 1 ≤ (image a order).length) :
    table what least item c = .ok items behind ↔
      (items.length < UInt64.size ∧ ∀ a ∈ items, valid a) ∧
        c.Covers (.table image items) behind := by
  simp only [table, bind_eq_ok_iff, count_eq_ok_iff, repeated_eq_ok_iff h, Image.table,
    Cursor.covers_append_iff]
  constructor
  · rintro ⟨n, between, ⟨⟨below, covers⟩, _⟩, rfl, valid_items, covers_items⟩
    exact ⟨⟨below, valid_items⟩, between, covers, covers_items⟩
  · rintro ⟨⟨below, valid_items⟩, between, covers, covers_items⟩
    exact ⟨items.length, between,
      ⟨⟨below, covers⟩, mul_length_le_remaining size valid_items covers_items⟩,
      rfl, valid_items, covers_items⟩

/-- A table of at most 255 items is read from its image and nothing else. -/
theorem shortTable_eq_ok_iff
    {what : String} {items : List α}
    (least : Nat)
    (h : Accepts item valid image)
    (size : ∀ a, valid a → ∀ order, max least 1 ≤ (image a order).length) :
    shortTable what least item c = .ok items behind ↔
      (items.length ≤ 255 ∧ ∀ a ∈ items, valid a) ∧
        c.Covers (.shortTable image items) behind := by
  simp only [shortTable, bind_eq_ok_iff, shortCount_eq_ok_iff, repeated_eq_ok_iff h,
    Image.shortTable, Cursor.covers_append_iff]
  constructor
  · rintro ⟨n, between, ⟨⟨below, covers⟩, _⟩, rfl, valid_items, covers_items⟩
    exact ⟨⟨below, valid_items⟩, between, covers, covers_items⟩
  · rintro ⟨⟨below, valid_items⟩, between, covers, covers_items⟩
    exact ⟨items.length, between,
      ⟨⟨below, covers⟩, mul_length_le_remaining size valid_items covers_items⟩,
      rfl, valid_items, covers_items⟩

end Tables

end Read
end StackCode
