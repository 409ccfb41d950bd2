import Mathlib.Algebra.Order.Ring.Nat
import Mathlib.Data.List.Basic
import Mathlib.Tactic.SplitIfs
import StackCode.Proofs.Bytes.Reading

/-!
# Characters

A character is read in UTF-8. The first byte announces how many bytes follow and the least code
that is written so; the bytes that follow hold six bits each. A code below the announced least is
refused, so every character has one written form, and it is the one that is written.

**Results.**
* `cons_eq_utf8Form`: the bytes that pass the checks stand for their code, be it a character or not.
* `utf8Form_eq_cons_iff`: the bytes that pass the checks are the form of their code.
* `character_eq_ok_iff`: a character is read exactly from its UTF-8 form.
-/

namespace StackCode

/-- The bytes that stand for a code in UTF-8, be it the code of a character or not. -/
def utf8Form (code : Nat) : List UInt8 :=
  if code ≤ 0x7F then
    [UInt8.ofNat code]
  else if code ≤ 0x7FF then
    [UInt8.ofNat (code / 0x40 % 0x20 + 0xC0), UInt8.ofNat (code % 0x40 + 0x80)]
  else if code ≤ 0xFFFF then
    [UInt8.ofNat (code / 0x1000 % 0x10 + 0xE0), UInt8.ofNat (code / 0x40 % 0x40 + 0x80),
      UInt8.ofNat (code % 0x40 + 0x80)]
  else
    [UInt8.ofNat (code / 0x40000 % 0x08 + 0xF0), UInt8.ofNat (code / 0x1000 % 0x40 + 0x80),
      UInt8.ofNat (code / 0x40 % 0x40 + 0x80), UInt8.ofNat (code % 0x40 + 0x80)]

theorem utf8EncodeChar_eq_utf8Form
    (ch : Char) :
    String.utf8EncodeChar ch = utf8Form ch.val.toNat := rfl

namespace Read

open Step

/-- The four kinds of first byte. -/
theorem leadByte_eq_some_iff
    {lead : UInt8} {following bits least : Nat} :
    leadByte lead = some (following, bits, least) ↔
      (lead.toNat < 0x80 ∧ following = 0 ∧ bits = lead.toNat ∧ least = 0) ∨
      ((0xC0 ≤ lead.toNat ∧ lead.toNat < 0xE0) ∧
        following = 1 ∧ bits = lead.toNat % 0x20 ∧ least = 0x80) ∨
      ((0xE0 ≤ lead.toNat ∧ lead.toNat < 0xF0) ∧
        following = 2 ∧ bits = lead.toNat % 0x10 ∧ least = 0x800) ∨
      ((0xF0 ≤ lead.toNat ∧ lead.toNat < 0xF8) ∧
        following = 3 ∧ bits = lead.toNat % 0x08 ∧ least = 0x10000) := by
  unfold leadByte
  dsimp only
  split_ifs <;> simp <;> omega

theorem continued_nil
    {code : Nat} :
    continued code [] = some code := rfl

theorem continued_cons_eq_some_iff
    {code result : Nat} {b : UInt8} {rest : List UInt8} :
    continued code (b :: rest) = some result ↔
      (0x80 ≤ b.toNat ∧ b.toNat < 0xC0) ∧
        continued (code * 0x40 + b.toNat % 0x40) rest = some result := by
  rw [continued]
  split
  · next h => simp [h]
  · next h => simp [h]

theorem toNat_charOfNat
    {code : Nat}
    (valid : code.isValidChar) :
    (Char.ofNat code).toNat = code := by
  rw [Char.ofNat, dif_pos valid]
  rfl

theorem ofNat_eq_of_eq_toNat
    {n : Nat} {b : UInt8}
    (h : n = b.toNat) :
    UInt8.ofNat n = b := by
  rw [h, UInt8.ofNat_toNat]

/-- Bytes that pass the checks of the reader stand for their code. -/
theorem cons_eq_utf8Form
    {lead : UInt8} {bytes : List UInt8} {following bits least code : Nat}
    (announced : leadByte lead = some (following, bits, least))
    (length : bytes.length = following)
    (added : continued bits bytes = some code)
    (reached : least ≤ code) :
    lead :: bytes = utf8Form code := by
  unfold utf8Form
  rcases leadByte_eq_some_iff.1 announced with
    ⟨range, rfl, rfl, rfl⟩ | ⟨range, rfl, rfl, rfl⟩ | ⟨range, rfl, rfl, rfl⟩ |
    ⟨range, rfl, rfl, rfl⟩
  · obtain rfl := List.length_eq_zero_iff.1 length
    cases added
    rw [if_pos (by omega), UInt8.ofNat_toNat]
  · obtain ⟨b, rfl⟩ := List.length_eq_one_iff.1 length
    simp only [continued_cons_eq_some_iff, continued_nil, Option.some.injEq] at added
    rw [if_neg (by omega), if_pos (by omega), ofNat_eq_of_eq_toNat (b := lead) (by omega),
      ofNat_eq_of_eq_toNat (b := b) (by omega)]
  · obtain ⟨b, b', rfl⟩ := List.length_eq_two.1 length
    simp only [continued_cons_eq_some_iff, continued_nil, Option.some.injEq] at added
    rw [if_neg (by omega), if_neg (by omega), if_pos (by omega),
      ofNat_eq_of_eq_toNat (b := lead) (by omega), ofNat_eq_of_eq_toNat (b := b) (by omega),
      ofNat_eq_of_eq_toNat (b := b') (by omega)]
  · obtain ⟨b, b', b'', rfl⟩ := List.length_eq_three.1 length
    simp only [continued_cons_eq_some_iff, continued_nil, Option.some.injEq] at added
    rw [if_neg (by omega), if_neg (by omega), if_neg (by omega),
      ofNat_eq_of_eq_toNat (b := lead) (by omega), ofNat_eq_of_eq_toNat (b := b) (by omega),
      ofNat_eq_of_eq_toNat (b := b') (by omega), ofNat_eq_of_eq_toNat (b := b'') (by omega)]

/-- Each byte that follows adds six bits. -/
theorem lt_of_continued
    {bits code : Nat} {bytes : List UInt8}
    (added : continued bits bytes = some code) :
    code < (bits + 1) * 0x40 ^ bytes.length := by
  induction bytes generalizing bits with
  | nil =>
      cases added
      simp
  | cons b rest ih =>
      obtain ⟨_, added⟩ := continued_cons_eq_some_iff.1 added
      have six : bits * 0x40 + b.toNat % 0x40 + 1 ≤ (bits + 1) * 0x40 := by omega
      calc code < (bits * 0x40 + b.toNat % 0x40 + 1) * 0x40 ^ rest.length := ih added
        _ ≤ (bits + 1) * 0x40 * 0x40 ^ rest.length := Nat.mul_le_mul_right _ six
        _ = (bits + 1) * 0x40 ^ (b :: rest).length := by
            rw [List.length_cons, Nat.pow_succ', Nat.mul_assoc]

/-- The form of a code passes the checks of the reader. -/
theorem continued_of_utf8Form
    {code : Nat} {lead : UInt8} {bytes : List UInt8}
    (top : code < 0x200000)
    (h : utf8Form code = lead :: bytes) :
    ∃ following bits least,
      leadByte lead = some (following, bits, least) ∧ bytes.length = following ∧
        continued bits bytes = some code ∧ least ≤ code := by
  have small : ∀ n, n < 256 → (UInt8.ofNat n).toNat = n := fun n => UInt8.toNat_ofNat_of_lt'
  simp only [utf8Form] at h
  split_ifs at h <;> cases h
  · refine ⟨0, _, 0, leadByte_eq_some_iff.2 ?_, rfl, rfl, Nat.zero_le _⟩
    rw [small _ (by omega)]
    omega
  · refine ⟨1, code / 64, 0x80, leadByte_eq_some_iff.2 ?_, rfl, ?_, by omega⟩
    · rw [small _ (by omega)]
      omega
    · simp only [continued_cons_eq_some_iff, continued_nil, Option.some.injEq]
      rw [small _ (by omega)]
      omega
  · refine ⟨2, code / 4096, 0x800, leadByte_eq_some_iff.2 ?_, rfl, ?_, by omega⟩
    · rw [small _ (by omega)]
      omega
    · simp only [continued_cons_eq_some_iff, continued_nil, Option.some.injEq]
      rw [small _ (by omega), small _ (by omega)]
      omega
  · refine ⟨3, code / 262144, 0x10000, leadByte_eq_some_iff.2 ?_, rfl, ?_, by omega⟩
    · rw [small _ (by omega)]
      omega
    · simp only [continued_cons_eq_some_iff, continued_nil, Option.some.injEq]
      rw [small _ (by omega), small _ (by omega), small _ (by omega)]
      omega

/-- The shape of the form of a code, in the terms of the reader. -/
theorem utf8Form_eq_cons_iff
    {code : Nat} {lead : UInt8} {bytes : List UInt8} :
    code < 0x200000 ∧ utf8Form code = lead :: bytes ↔
      ∃ following bits least,
        leadByte lead = some (following, bits, least) ∧ bytes.length = following ∧
          continued bits bytes = some code ∧ least ≤ code := by
  constructor
  · rintro ⟨top, h⟩
    exact continued_of_utf8Form top h
  · rintro ⟨following, bits, least, announced, length, added, reached⟩
    refine ⟨?_, (cons_eq_utf8Form announced length added reached).symm⟩
    have bound := lt_of_continued added
    rw [length] at bound
    rcases leadByte_eq_some_iff.1 announced with
      ⟨range, rfl, rfl, _⟩ | ⟨range, rfl, rfl, _⟩ | ⟨range, rfl, rfl, _⟩ | ⟨range, rfl, rfl, _⟩
    all_goals omega

/-- The shape of the UTF-8 form of a character, in the terms of the reader. -/
theorem utf8EncodeChar_eq_cons_iff
    {ch : Char} {lead : UInt8} {bytes : List UInt8} :
    String.utf8EncodeChar ch = lead :: bytes ↔
      ∃ following bits least,
        leadByte lead = some (following, bits, least) ∧ bytes.length = following ∧
          continued bits bytes = some ch.val.toNat ∧ least ≤ ch.val.toNat := by
  have top : ch.val.toNat < 0x200000 := by
    rcases ch.valid with low | high <;> omega
  rw [← utf8Form_eq_cons_iff, utf8EncodeChar_eq_utf8Form, and_iff_right top]

/-- A character is read from its UTF-8 form and nothing else. -/
theorem character_eq_ok_iff
    {c behind : Cursor} {ch : Char} :
    character c = .ok ch behind ↔ c.Covers (.raw (String.utf8EncodeChar ch)) behind := by
  simp only [character, bind_eq_ok_iff, offset_eq_ok_iff, byte_eq_ok_iff, Image.byte_eq_raw]
  constructor
  · rintro ⟨_, _, ⟨rfl, rfl⟩, lead, between, first, done⟩
    cases announced : leadByte lead with
    | none =>
        simp [announced] at done
    | some kind =>
        obtain ⟨following, bits, least⟩ := kind
        simp only [announced, bind_eq_ok_iff, take_eq_ok_iff] at done
        obtain ⟨bytes, last, ⟨length, others⟩, done⟩ := done
        cases added : continued bits bytes with
        | none =>
            simp [added] at done
        | some code =>
            simp only [added] at done
            split_ifs at done with small valid
            · exact absurd done corrupt_ne_ok
            · obtain ⟨rfl, rfl⟩ := pure_eq_ok_iff.1 done
              have value : (Char.ofNat code).val.toNat = code := toNat_charOfNat valid
              rw [utf8EncodeChar_eq_utf8Form, value, ← cons_eq_utf8Form announced length added
                (Nat.le_of_not_lt small), ← List.singleton_append, Image.raw_append]
              exact Cursor.covers_append_iff.2 ⟨between, first, others⟩
            · exact absurd done corrupt_ne_ok
  · intro h
    obtain ⟨lead, bytes, form⟩ := List.exists_cons_of_ne_nil String.utf8EncodeChar_ne_nil
    obtain ⟨following, bits, least, announced, length, added, reached⟩ :=
      utf8EncodeChar_eq_cons_iff.1 form
    rw [form, ← List.singleton_append, Image.raw_append] at h
    obtain ⟨between, first, others⟩ := Cursor.covers_append_iff.1 h
    refine ⟨c.offset, c, ⟨rfl, rfl⟩, lead, between, first, ?_⟩
    simp only [announced, bind_eq_ok_iff, take_eq_ok_iff]
    refine ⟨bytes, behind, ⟨length, others⟩, ?_⟩
    have valid : ch.val.toNat.isValidChar := ch.valid
    have same : Char.ofNat ch.val.toNat = ch := Char.ofNat_toNat ch
    simp only [added, if_neg (Nat.not_lt.2 reached), if_pos valid, same]
    rfl

/-- Where the form of a character comes next, it is read. -/
theorem character_of_rest_eq
    {c : Cursor} {ch : Char} {rest : List UInt8}
    (h : c.rest = String.utf8EncodeChar ch ++ rest) :
    character c = .ok ch ⟨rest, c.offset + (String.utf8EncodeChar ch).length, c.order⟩ :=
  character_eq_ok_iff.2 ⟨h, rfl, rfl⟩

end Read
end StackCode
