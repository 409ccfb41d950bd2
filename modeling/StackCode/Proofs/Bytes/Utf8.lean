import StackCode.Proofs.Bytes.Character
import StackCode.Proofs.Bytes.Emission

/-!
# Reading UTF-8

A character is read by hand, a text by the library. The reader of characters looks at the first byte
to see how many follow, checks these bytes, adds their bits to a code, and checks the code. Each
check has an error of its own, and the order of the checks decides which error is reported. The
statements below tell all outcomes from the bytes alone, without these steps.

A form of a code is written with as many bytes as the code needs and no more. Bytes start with at
most one form. If it is that of a character, the character is read; if it is that of another code,
the code is reported. Bytes that start with no form are reported as no text, unless they end inside
the sequence that their first byte announces.

**Results.**
* `Read.character_eq_error_iff`: which bytes are refused, and what is reported.
* `Read.exists_characters_iff`: characters until the last byte.
* `Read.reads_shortest_forms`: the reader against the writer and against the library.
-/

namespace StackCode
namespace Read

open Step

/-- How many bytes the first byte of a character announces behind itself. -/
def followers (lead : UInt8) : Nat :=
  if lead.toNat < 0xC0 then 0
  else if lead.toNat < 0xE0 then 1
  else if lead.toNat < 0xF0 then 2
  else if lead.toNat < 0xF8 then 3
  else 0

/-- The bytes end inside a character: there are none, or fewer than the first of them announces. -/
def EndsInside (bytes : List UInt8) : Prop :=
  bytes = [] ∨ ∃ lead others, bytes = lead :: others ∧ others.length < followers lead

/-- The bytes start with the form of a code, be it the code of a character or not. -/
def StartsWith (code : Nat) (bytes : List UInt8) : Prop :=
  code < 0x200000 ∧ utf8Form code <+: bytes

/-- What is reported where no character stands. -/
inductive Refused (c : Cursor) : Error → Prop
  | empty :
      c.rest = [] → Refused c (.corrupt c.offset (.unexpectedEnd 1 0))
  | short {lead : UInt8} {others : List UInt8} :
      c.rest = lead :: others → others.length < followers lead →
        Refused c (.corrupt (c.offset + 1) (.unexpectedEnd (followers lead) others.length))
  | invalid {code : Nat} :
      StartsWith code c.rest → (0xD800 ≤ code ∧ code < 0xE000 ∨ 0x110000 ≤ code) →
        Refused c (.corrupt c.offset (.invalidCharacter code))
  | malformed :
      ¬ EndsInside c.rest → (∀ code, ¬ StartsWith code c.rest) →
        Refused c (.corrupt c.offset .invalidText)

variable {c behind : Cursor} {lead : UInt8} {others : List UInt8}
variable {following bits least code : Nat}

theorem followers_of_leadByte
    (announced : leadByte lead = some (following, bits, least)) :
    followers lead = following := by
  rw [leadByte_eq_some_iff] at announced
  unfold followers
  split_ifs <;> omega

theorem followers_of_none
    (none : leadByte lead = none) :
    followers lead = 0 := by
  have range : lead.toNat < 0xC0 ∨ 0xF8 ≤ lead.toNat := by
    unfold leadByte at none
    dsimp only at none
    split_ifs at none <;> omega
  unfold followers
  split_ifs <;> omega

theorem utf8Form_ne_nil
    (code : Nat) :
    utf8Form code ≠ [] := by
  unfold utf8Form
  split_ifs <;> exact List.cons_ne_nil _ _

theorem not_startsWith_nil
    (code : Nat) :
    ¬ StartsWith code [] :=
  fun starts => utf8Form_ne_nil code (List.prefix_nil.1 starts.2)

/-- Bytes start with the form of a code when they pass the checks of the reader. -/
theorem startsWith_cons_iff :
    StartsWith code (lead :: others) ↔
      ∃ following bits least,
        leadByte lead = some (following, bits, least) ∧ following ≤ others.length ∧
          continued bits (others.take following) = some code ∧ least ≤ code := by
  constructor
  · rintro ⟨top, rest, form⟩
    obtain ⟨first, bytes, cons⟩ := List.exists_cons_of_ne_nil (utf8Form_ne_nil code)
    rw [cons, List.cons_append, List.cons.injEq] at form
    obtain ⟨rfl, rfl⟩ := form
    obtain ⟨following, bits, least, announced, length, added, reached⟩ :=
      continued_of_utf8Form top cons
    refine ⟨following, bits, least, announced, by simp [length], ?_, reached⟩
    rw [← length, List.take_left]
    exact added
  · rintro ⟨following, bits, least, announced, enough, added, reached⟩
    have length : (others.take following).length = following := by
      rw [List.length_take, Nat.min_eq_left enough]
    obtain ⟨top, form⟩ :=
      utf8Form_eq_cons_iff.2 ⟨following, bits, least, announced, length, added, reached⟩
    refine ⟨top, others.drop following, ?_⟩
    rw [form, List.cons_append, List.take_append_drop]

theorem byte_of_nil
    (none : c.rest = []) :
    byte c = .error (.corrupt c.offset (.unexpectedEnd 1 0)) c := by
  have zero : c.remaining = 0 := by rw [Cursor.remaining, none, List.length_nil]
  have short := take_of_lt (c := c) (n := 1) (by omega)
  rw [zero] at short
  exact bind_of_eq_error (bind_of_eq_error short)

theorem byte_of_cons
    (some : c.rest = lead :: others) :
    byte c = .ok lead (c.skip 1) := by
  rw [byte_eq_ok_iff, Image.byte_eq_raw]
  exact ⟨by simp [Cursor.skip, some], rfl, rfl⟩

theorem character_of_nil
    (none : c.rest = []) :
    character c = .error (.corrupt c.offset (.unexpectedEnd 1 0)) c := by
  rw [character, offset_bind]
  exact bind_of_eq_error (byte_of_nil none)

section Led

variable (some : c.rest = lead :: others)
include some

theorem remaining_skip_one : (c.skip 1).remaining = others.length := by
  simp [Cursor.remaining, Cursor.skip, some]

/-- The bytes that the first one announces are asked for before any of them is checked. -/
theorem character_of_short
    (short : others.length < followers lead) :
    character c =
      .error (.corrupt (c.offset + 1) (.unexpectedEnd (followers lead) others.length))
        (c.skip 1) := by
  rw [character, offset_bind, bind_of_eq_ok (byte_of_cons some)]
  cases announced : leadByte lead with
  | none =>
      rw [followers_of_none announced] at short
      cases short
  | some kind =>
      obtain ⟨following, bits, least⟩ := kind
      rw [followers_of_leadByte announced] at short ⊢
      have refused := take_of_lt (c := c.skip 1) (n := following)
        (by rw [remaining_skip_one some]; exact short)
      rw [remaining_skip_one some] at refused
      exact bind_of_eq_error refused

/-- Behind the checks, the code is that of a character or is reported. -/
theorem character_of_startsWith
    (starts : StartsWith code (lead :: others)) :
    ∃ behind,
      character c =
        if code.isValidChar then .ok (Char.ofNat code) behind
        else .error (.corrupt c.offset (.invalidCharacter code)) behind := by
  obtain ⟨following, bits, least, announced, enough, added, reached⟩ :=
    startsWith_cons_iff.1 starts
  have taken : take following (c.skip 1) =
      .ok (others.take following) ((c.skip 1).skip following) := by
    rw [take_of_le (by rw [remaining_skip_one some]; exact enough)]
    simp [Cursor.skip, some]
  refine ⟨(c.skip 1).skip following, ?_⟩
  rw [character, offset_bind, bind_of_eq_ok (byte_of_cons some)]
  simp only [announced]
  rw [bind_of_eq_ok taken]
  simp only [added, if_neg (Nat.not_lt.2 reached)]
  split <;> rfl

theorem character_of_malformed
    (enough : followers lead ≤ others.length)
    (starts : ∀ code, ¬ StartsWith code (lead :: others)) :
    ∃ left, character c = .error (.corrupt c.offset .invalidText) left := by
  rw [character, offset_bind, bind_of_eq_ok (byte_of_cons some)]
  cases announced : leadByte lead with
  | none =>
      exact ⟨_, rfl⟩
  | some kind =>
      obtain ⟨following, bits, least⟩ := kind
      rw [followers_of_leadByte announced] at enough
      have taken : take following (c.skip 1) =
          .ok (others.take following) ((c.skip 1).skip following) := by
        rw [take_of_le (by rw [remaining_skip_one some]; exact enough)]
        simp [Cursor.skip, some]
      dsimp only
      rw [bind_of_eq_ok taken]
      cases added : continued bits (others.take following) with
      | none =>
          exact ⟨_, rfl⟩
      | some code =>
          have small : code < least := by
            by_contra reached
            exact starts code (startsWith_cons_iff.2
              ⟨following, bits, least, announced, enough, added, Nat.not_lt.1 reached⟩)
          dsimp only
          rw [if_pos small]
          exact ⟨_, rfl⟩

end Led

theorem not_isValidChar_iff :
    ¬ code.isValidChar ↔ 0xD800 ≤ code ∧ code < 0xE000 ∨ 0x110000 ≤ code := by
  simp only [Nat.isValidChar]
  omega

/-- What is reported, and where, is told by the bytes alone. -/
theorem character_eq_error_iff
    {e : Error} :
    (∃ left, character c = .error e left) ↔ Refused c e := by
  constructor
  · rintro ⟨left, refused⟩
    cases bytes : c.rest with
    | nil =>
        rw [character_of_nil bytes] at refused
        cases refused
        exact .empty bytes
    | cons lead others =>
        by_cases short : others.length < followers lead
        · rw [character_of_short bytes short] at refused
          cases refused
          exact .short bytes short
        by_cases starts : ∃ code, StartsWith code (lead :: others)
        · obtain ⟨code, starts⟩ := starts
          obtain ⟨behind, done⟩ := character_of_startsWith bytes starts
          rw [refused] at done
          split at done
          · cases done
          · next other =>
            cases done
            exact .invalid (bytes ▸ starts) (not_isValidChar_iff.1 other)
        · have none (code : Nat) : ¬ StartsWith code (lead :: others) :=
            fun found => starts ⟨code, found⟩
          obtain ⟨_, done⟩ := character_of_malformed bytes (Nat.not_lt.1 short) none
          rw [refused] at done
          cases done
          refine .malformed ?_ (bytes ▸ none)
          rintro (empty | ⟨_, _, same, inside⟩)
          · cases bytes.symm.trans empty
          · cases bytes.symm.trans same
            exact short inside
  · intro h
    cases h with
    | empty none =>
        exact ⟨c, character_of_nil none⟩
    | short bytes short =>
        exact ⟨_, character_of_short bytes short⟩
    | @invalid code starts other =>
        cases bytes : c.rest with
        | nil =>
            exact absurd (bytes ▸ starts) (not_startsWith_nil code)
        | cons lead others =>
            obtain ⟨behind, done⟩ := character_of_startsWith bytes (bytes ▸ starts)
            exact ⟨behind, done.trans (if_neg (not_isValidChar_iff.2 other))⟩
    | malformed complete starts =>
        cases bytes : c.rest with
        | nil =>
            exact absurd (Or.inl bytes) complete
        | cons lead others =>
            refine character_of_malformed bytes (Nat.not_lt.1 fun short => ?_) (bytes ▸ starts)
            exact complete (Or.inr ⟨lead, others, bytes, short⟩)

/-- A character takes at least one byte. -/
theorem remaining_lt_of_character
    {ch : Char}
    (done : character c = .ok ch behind) :
    behind.remaining < c.remaining := by
  have rest := (character_eq_ok_iff.1 done).rest
  have some : 0 < (String.utf8EncodeChar ch).length :=
    List.length_pos_iff.2 String.utf8EncodeChar_ne_nil
  rw [Cursor.remaining, Cursor.remaining, rest, List.length_append]
  exact Nat.lt_add_of_pos_left some

/-- Characters, one behind the other, until no bytes are left. -/
def characters (c : Cursor) : EStateM.Result Error Cursor (List Char) :=
  if c.isEmpty then .ok [] c
  else
    match read : character c with
    | .error e left => .error e left
    | .ok ch behind =>
      have := remaining_lt_of_character read
      match characters behind with
      | .error e left => .error e left
      | .ok others last => .ok (ch :: others) last
termination_by c.remaining

/-- Behind a character that was read, the others stand where they stood before. -/
theorem rest_eq_cons_iff
    {ch first : Char} {chars : List Char}
    (done : character c = .ok ch behind) :
    c.rest = (first :: chars).flatMap String.utf8EncodeChar ↔
      ch = first ∧ behind.rest = chars.flatMap String.utf8EncodeChar := by
  rw [List.flatMap_cons]
  constructor
  · intro bytes
    cases done.symm.trans (character_of_rest_eq bytes)
    exact ⟨rfl, rfl⟩
  · rintro ⟨rfl, others⟩
    rw [(character_eq_ok_iff.1 done).rest, others]
    rfl

/-- Bytes that are left belong to some character. -/
theorem exists_eq_cons
    {chars : List Char}
    (some : ¬ c.isEmpty)
    (bytes : c.rest = chars.flatMap String.utf8EncodeChar) :
    ∃ first others, chars = first :: others := by
  refine List.exists_cons_of_ne_nil ?_
  rintro rfl
  exact some (List.isEmpty_iff.2 bytes)

/-- Reading until the last byte succeeds on the forms of characters, one behind the other. -/
theorem exists_characters_iff
    {chars : List Char} :
    (∃ last, characters c = .ok chars last) ↔ c.rest = chars.flatMap String.utf8EncodeChar := by
  fun_induction characters c generalizing chars with
  | case1 c empty =>
      have none : c.rest = [] := List.isEmpty_iff.1 empty
      rw [none, eq_comm, List.flatMap_eq_nil_iff]
      constructor
      · rintro ⟨_, ⟨⟩⟩
        exact fun _ member => absurd member List.not_mem_nil
      · intro forms
        cases chars with
        | nil => exact ⟨c, rfl⟩
        | cons first chars =>
            exact absurd (forms first List.mem_cons_self) String.utf8EncodeChar_ne_nil
  | case2 c some e left refused =>
      refine iff_of_false (by simp) fun bytes => ?_
      obtain ⟨first, chars, rfl⟩ := exists_eq_cons some bytes
      rw [List.flatMap_cons] at bytes
      cases refused.symm.trans (character_of_rest_eq bytes)
  | case3 c some ch behind read _ e left refused ih =>
      refine iff_of_false (by simp) fun bytes => ?_
      obtain ⟨first, chars, rfl⟩ := exists_eq_cons some bytes
      obtain ⟨last, done⟩ := ih.2 ((rest_eq_cons_iff read).1 bytes).2
      cases refused.symm.trans done
  | case4 c some ch behind read _ others last done ih =>
      cases chars with
      | nil =>
          exact iff_of_false (by simp) fun bytes => some (List.isEmpty_iff.2 bytes)
      | cons first chars =>
          rw [rest_eq_cons_iff read, ← ih, done]
          simp

/-- The library reads a text as the characters whose forms its bytes are. -/
theorem fromUTF8?_eq_some_ofList_iff
    {bytes : List UInt8} {chars : List Char} :
    String.fromUTF8? bytes.toByteArray = some (String.ofList chars) ↔
      bytes = chars.flatMap String.utf8EncodeChar := by
  rw [fromUTF8?_eq_some_iff]
  simp [Write.utf8, List.utf8Encode]

/-- What the writer sends for a character is its form and nothing else. -/
theorem emits_character_iff
    {ch : Char} {bytes : List UInt8} :
    (Write.character ch).Emits (.raw bytes) (.ok ()) ↔ String.utf8EncodeChar ch = bytes := by
  constructor
  · intro sends
    let sink := Sink.empty .little none
    have sent (bytes : List UInt8) : sink.receive bytes (.ok ()) = .ok () (sink.add bytes) :=
      Sink.receive_ok_of_room rfl
    have same := (Write.emits_raw (String.utf8EncodeChar ch) sink).symm.trans (sends sink)
    rw [Image.raw_apply, Image.raw_apply, sent, sent] at same
    simpa [sink, Sink.add, Sink.empty] using same
  · rintro rfl
    exact Write.emits_raw _

/-- A character is read, from a number of bytes, exactly where these are the bytes that the writer
sends for it. So characters can be read up to the last byte exactly from the texts of the library,
and are the characters of the text. Where no character can be read, the report is that bytes are
missing if there are none, or fewer than the first one announces; it is a code if the bytes start
with the form of one that no character has; and in every other case it is that they are no text. -/
theorem reads_shortest_forms
    (c : Cursor) :
    (∀ ch n,
      (∃ behind, character c = .ok ch behind ∧ behind.offset = c.offset + n) ↔
        n ≤ c.remaining ∧ (Write.character ch).Emits (.raw (c.rest.take n)) (.ok ())) ∧
    (∀ chars,
      (∃ last, characters c = .ok chars last) ↔
        String.fromUTF8? c.rest.toByteArray = some (String.ofList chars)) ∧
    ∀ e, (∃ left, character c = .error e left) ↔ Refused c e := by
  refine ⟨fun ch n => ?_, fun chars => ?_, fun e => character_eq_error_iff⟩
  · rw [emits_character_iff]
    constructor
    · rintro ⟨behind, done, offset⟩
      have covers := character_eq_ok_iff.1 done
      have length : (String.utf8EncodeChar ch).length = n := by
        have moved := covers.offset
        rw [Image.raw_apply] at moved
        omega
      have within := covers.length_le_remaining
      rw [Image.raw_apply, length] at within
      rw [covers.rest, Image.raw_apply]
      exact ⟨within, (List.take_left' length).symm⟩
    · rintro ⟨within, form⟩
      have bytes : c.rest = String.utf8EncodeChar ch ++ c.rest.drop n := by
        rw [form, List.take_append_drop]
      refine ⟨_, character_of_rest_eq bytes, ?_⟩
      rw [form, List.length_take, ← Cursor.remaining, Nat.min_eq_left within]
  · rw [exists_characters_iff, fromUTF8?_eq_some_ofList_iff]

end Read
end StackCode
