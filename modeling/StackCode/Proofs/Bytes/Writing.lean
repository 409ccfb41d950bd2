import Mathlib.Data.List.Forall2
import Mathlib.Tactic.SplitIfs
import StackCode.Proofs.Bytes.Image
import StackCode.Proofs.Step

/-!
# What writing leaves behind

A step that writes succeeds exactly when its value can be written and the sink has room for the
image of the value, and then it leaves the sink with this image behind its former bytes. As for
reading, each statement is an equivalence, and the layout of a value is the same `Image`.

**Results.**
* `Sink.takes_append_iff`: a sink takes a sequence of images by taking one behind the other.
* `shortText_eq_ok_iff`: a text behind one byte is written when it has at most 255 bytes.
* `table_eq_ok_iff`: a table is written when its items can be written.
-/

namespace StackCode
namespace Sink

/-- The sink with further bytes. -/
def add (s : Sink) (bytes : List UInt8) : Sink := { s with bytes := s.bytes ++ bytes }

/-- A sink has room for an image, and the other sink holds it behind the former bytes. -/
structure Takes (s : Sink) (image : Image) (s' : Sink) : Prop where
  room : s.room (image s.order).length = (image s.order).length
  sink : s' = s.add (image s.order)

theorem size_add
    (s : Sink) (bytes : List UInt8) :
    (s.add bytes).bytes.size = s.bytes.size + bytes.length := by
  rw [add, ← Array.length_toList]
  simp

@[simp] theorem add_nil
    (s : Sink) :
    s.add [] = s := by
  simp [add]

theorem add_append
    (s : Sink) (first second : List UInt8) :
    s.add (first ++ second) = (s.add first).add second := by
  simp [add, ← Array.toList_inj]

/-- There is room for `n` bytes when the limit, if any, is not exceeded by them. -/
theorem room_eq_iff
    {s : Sink} {n : Nat} :
    s.room n = n ↔ ∀ limit, s.limit = some limit → n = 0 ∨ s.bytes.size + n ≤ limit := by
  unfold room
  cases s.limit with
  | none =>
      simp
  | some limit =>
      simp only [Option.some.injEq, forall_eq']
      omega

/-- A sink without a limit takes every image. -/
theorem takes_iff_of_limit_none
    {s s' : Sink} {image : Image}
    (h : s.limit = none) :
    s.Takes image s' ↔ s' = s.add (image s.order) := by
  have room : ∀ n, s.room n = n := fun n => room_eq_iff.2 fun limit hl => by simp [h] at hl
  exact ⟨fun t => t.sink, fun t => ⟨room _, t⟩⟩

/-- Taking no bytes is staying as it was. -/
@[simp] theorem takes_raw_nil_iff
    {s s' : Sink} :
    s.Takes (.raw []) s' ↔ s' = s := by
  constructor
  · intro h
    rw [h.sink, Image.raw_apply, add_nil]
  · rintro rfl
    exact ⟨room_eq_iff.2 fun limit _ => Or.inl rfl, (add_nil s').symm⟩

/-- Two images one behind the other are taken one behind the other. -/
theorem takes_append_iff
    {s s' : Sink} {x y : Image} :
    s.Takes (x ++ y) s' ↔ ∃ between, s.Takes x between ∧ between.Takes y s' := by
  have whole : s.room ((x ++ y) s.order).length = ((x ++ y) s.order).length ↔
      s.room (x s.order).length = (x s.order).length ∧
        (s.add (x s.order)).room (y s.order).length = (y s.order).length := by
    simp only [room_eq_iff, Image.append_apply, List.length_append, size_add]
    constructor
    · intro h
      refine ⟨fun limit hl => ?_, fun limit hl => ?_⟩
      · have := h limit hl
        omega
      · have := h limit hl
        omega
    · rintro ⟨first, second⟩ limit hl
      have := first limit hl
      have := second limit hl
      omega
  constructor
  · intro h
    obtain ⟨first, second⟩ := whole.1 h.room
    exact ⟨s.add (x s.order), ⟨first, rfl⟩, second, h.sink.trans (add_append _ _ _)⟩
  · rintro ⟨between, ⟨first, rfl⟩, second, rfl⟩
    exact ⟨whole.2 ⟨first, second⟩, (add_append _ _ _).symm⟩

end Sink

namespace Write

open Step

variable {α β : Type} {s s' : Sink} {u : Unit}

/-- A step that writes stores exactly the items that stand for something, as the image of what they
stand for. -/
def Stores (item : α → Write Unit) (Means : α → β → Prop) (image : β → Image) : Prop :=
  ∀ (a : α) (s s' : Sink) (u : Unit),
    item a s = .ok u s' ↔ ∃ b, Means a b ∧ s.Takes (image b) s'

theorem raw_eq_ok_iff
    {bytes : List UInt8} :
    raw bytes s = .ok u s' ↔ s.Takes (.raw bytes) s' := by
  have below : s.room bytes.length ≤ bytes.length := by
    unfold Sink.room
    split <;> omega
  have run : raw bytes s =
      if s.room bytes.length < bytes.length then
        .error .sinkFull (s.add (bytes.take (s.room bytes.length)))
      else .ok () (s.add (bytes.take (s.room bytes.length))) := by
    rw [raw, get_bind, set_bind]
    split_ifs <;> rfl
  rw [run]
  constructor
  · intro h
    split_ifs at h with full
    have room : s.room bytes.length = bytes.length := by omega
    rw [room, List.take_length] at h
    cases h
    exact ⟨room, rfl⟩
  · rintro ⟨room, rfl⟩
    rw [Image.raw_apply] at room ⊢
    rw [if_neg (by omega), room, List.take_length]

theorem word_eq_ok_iff
    {width n : Nat} :
    word width n s = .ok u s' ↔ s.Takes (.word width n) s' := by
  simp only [word, bind_eq_ok_iff, get_eq_ok_iff, raw_eq_ok_iff]
  constructor
  · rintro ⟨_, _, ⟨rfl, rfl⟩, h⟩
    exact ⟨h.room, h.sink⟩
  · intro h
    exact ⟨s, s, ⟨rfl, rfl⟩, h.room, h.sink⟩

theorem byte_eq_ok_iff
    {value : UInt8} :
    byte value s = .ok u s' ↔ s.Takes (.byte value) s' :=
  word_eq_ok_iff

theorem boolean_eq_ok_iff
    {value : Bool} :
    boolean value s = .ok u s' ↔ s.Takes (.boolean value) s' :=
  word_eq_ok_iff

/-- A size is written modulo the words of its width. -/
theorem word_size_eq_ok_iff
    {size : Nat} :
    word64 (UInt64.ofNat size) s = .ok u s' ↔ s.Takes (.word 8 size) s' := by
  rw [word64, word_eq_ok_iff, UInt64.toNat_ofNat', ← Image.word_mod 8 size]

theorem byte_size_eq_ok_iff
    {size : Nat} :
    byte (UInt8.ofNat size) s = .ok u s' ↔ s.Takes (.word 1 size) s' := by
  rw [byte, word_eq_ok_iff, UInt8.toNat_ofNat', ← Image.word_mod 1 size]

theorem text_eq_ok_iff
    {value : String} :
    text value s = .ok u s' ↔ s.Takes (.text value) s' := by
  simp only [text, bind_eq_ok_iff, word_size_eq_ok_iff, raw_eq_ok_iff, Image.text,
    Sink.takes_append_iff]
  constructor
  · rintro ⟨_, between, h⟩
    exact ⟨between, h⟩
  · rintro ⟨between, h⟩
    exact ⟨(), between, h⟩

/-- Only a text of at most 255 bytes can be written behind one byte. -/
theorem shortText_eq_ok_iff
    {value : String} :
    shortText value s = .ok u s' ↔
      value.utf8ByteSize ≤ 255 ∧ s.Takes (.shortText value) s' := by
  simp only [shortText, Image.shortText, Sink.takes_append_iff]
  split_ifs with long
  · simp only [bind_eq_ok_iff, throw_ne_ok, false_and, exists_false, false_iff]
    omega
  · simp only [bind_eq_ok_iff, byte_size_eq_ok_iff, raw_eq_ok_iff]
    constructor
    · rintro ⟨_, between, h⟩
      exact ⟨Nat.le_of_not_lt long, between, h⟩
    · rintro ⟨_, between, h⟩
      exact ⟨(), between, h⟩

section Tables

variable {item : α → Write Unit}

theorem each_eq_ok_iff_forall₂
    {Means : α → β → Prop} {image : β → Image}
    (h : Stores item Means image) :
    ∀ {items : List α} {s s' : Sink},
      each item items s = .ok u s' ↔
        ∃ meant, List.Forall₂ Means items meant ∧ s.Takes (.concat image meant) s'
  | [], s, s' => by
      rw [each, pure_eq_ok_iff]
      constructor
      · rintro ⟨_, rfl⟩
        exact ⟨[], .nil, Sink.takes_raw_nil_iff.2 rfl⟩
      · rintro ⟨_, ⟨⟩, taken⟩
        exact ⟨rfl, (Sink.takes_raw_nil_iff.1 taken).symm⟩
  | first :: others, s, s' => by
      simp only [each, bind_eq_ok_iff]
      constructor
      · rintro ⟨_, between, head, tail⟩
        obtain ⟨b, means, taken⟩ := (h _ _ _ _).1 head
        obtain ⟨bs, means_others, taken_others⟩ := (each_eq_ok_iff_forall₂ h).1 tail
        exact ⟨b :: bs, .cons means means_others,
          Sink.takes_append_iff.2 ⟨between, taken, taken_others⟩⟩
      · rintro ⟨_, all, taken⟩
        obtain ⟨b, bs, means, means_others, rfl⟩ := List.forall₂_cons_left_iff.1 all
        obtain ⟨between, taken, taken_others⟩ := Sink.takes_append_iff.1 taken
        exact ⟨(), between, (h _ _ _ _).2 ⟨b, means, taken⟩,
          (each_eq_ok_iff_forall₂ h).2 ⟨bs, means_others, taken_others⟩⟩

theorem table_eq_ok_iff_forall₂
    {Means : α → β → Prop} {image : β → Image} {items : List α}
    (h : Stores item Means image) :
    table item items s = .ok u s' ↔
      ∃ meant, List.Forall₂ Means items meant ∧ s.Takes (.table image meant) s' := by
  simp only [table, bind_eq_ok_iff, word_size_eq_ok_iff, each_eq_ok_iff_forall₂ h, Image.table,
    Sink.takes_append_iff]
  constructor
  · rintro ⟨_, between, count, meant, means, taken⟩
    exact ⟨meant, means, between, means.length_eq ▸ count, taken⟩
  · rintro ⟨meant, means, between, count, taken⟩
    exact ⟨(), between, means.length_eq ▸ count, meant, means, taken⟩

variable {valid : α → Prop} {image : α → Image}

/-- Items that are stored as their own images. -/
theorem stores_of_eq_ok_iff
    (h : ∀ (a : α) (s s' : Sink) (u : Unit),
      item a s = .ok u s' ↔ valid a ∧ s.Takes (image a) s') :
    Stores item (fun a b => valid a ∧ a = b) image := by
  intro a s s' u
  rw [h]
  constructor
  · rintro ⟨valid_a, taken⟩
    exact ⟨a, ⟨valid_a, rfl⟩, taken⟩
  · rintro ⟨b, ⟨valid_a, rfl⟩, taken⟩
    exact ⟨valid_a, taken⟩

theorem forall₂_and_eq_iff
    {items others : List α} :
    List.Forall₂ (fun a b => valid a ∧ a = b) items others ↔
      (∀ a ∈ items, valid a) ∧ items = others := by
  rw [List.forall₂_and_left, List.forall₂_eq_eq_eq]

theorem each_eq_ok_iff
    {items : List α}
    (h : Stores item (fun a b => valid a ∧ a = b) image) :
    each item items s = .ok u s' ↔
      (∀ a ∈ items, valid a) ∧ s.Takes (.concat image items) s' := by
  rw [each_eq_ok_iff_forall₂ h]
  constructor
  · rintro ⟨_, means, taken⟩
    obtain ⟨valid_items, rfl⟩ := forall₂_and_eq_iff.1 means
    exact ⟨valid_items, taken⟩
  · rintro ⟨valid_items, taken⟩
    exact ⟨items, forall₂_and_eq_iff.2 ⟨valid_items, rfl⟩, taken⟩

theorem table_eq_ok_iff
    {items : List α}
    (h : Stores item (fun a b => valid a ∧ a = b) image) :
    table item items s = .ok u s' ↔
      (∀ a ∈ items, valid a) ∧ s.Takes (.table image items) s' := by
  rw [table_eq_ok_iff_forall₂ h]
  constructor
  · rintro ⟨_, means, taken⟩
    obtain ⟨valid_items, rfl⟩ := forall₂_and_eq_iff.1 means
    exact ⟨valid_items, taken⟩
  · rintro ⟨valid_items, taken⟩
    exact ⟨items, forall₂_and_eq_iff.2 ⟨valid_items, rfl⟩, taken⟩

end Tables

end Write
end StackCode
