import StackCode.Proofs.Bytes.Reading

/-!
# Reading with more bytes behind

A step looks at the bytes that it takes, and at how many bytes are left only to find out whether
they are enough. When bytes are added behind the last, a step that succeeded therefore succeeds as
before, and so does a refusal that had another reason than a want of bytes.

A step with this property is called *stable*. The property is closed under sequencing, so it passes
from the steps that take bytes or check a count to everything that is put together from them.

**Results.**
* `Read.Stable.bind`, `Read.Stable.table`: sequences and tables of stable steps.
* `Read.stable_take`, `Read.stable_checkCount`: the two steps that look at how many bytes are left.
-/

namespace StackCode

/-- Fewer bytes are left than were asked for or announced. -/
def Error.isShortage : Error → Bool
  | .corrupt _ (.unexpectedEnd ..) => true
  | .corrupt _ (.countTooLarge ..) => true
  | _ => false

namespace Cursor

variable {c : Cursor} {n : Nat}

/-- The same position with more bytes behind the last. -/
def extend (c : Cursor) (more : List UInt8) : Cursor := { c with rest := c.rest ++ more }

theorem remaining_extend
    (c : Cursor) (more : List UInt8) :
    (c.extend more).remaining = c.remaining + more.length :=
  List.length_append

theorem skip_extend
    (more : List UInt8)
    (enough : n ≤ c.remaining) :
    (c.extend more).skip n = (c.skip n).extend more := by
  simp only [skip, extend, List.drop_append_of_le_length enough]

end Cursor

namespace Read

open Step

variable {α β : Type} {c : Cursor}

/-- Bytes that are added behind change neither what the step returns nor why it is refused, unless
it is refused for want of bytes. -/
structure Stable (step : Read α) : Prop where
  ok : ∀ {c : Cursor} {a : α} {behind : Cursor} (more : List UInt8),
    step c = .ok a behind → step (c.extend more) = .ok a (behind.extend more)
  error : ∀ {c : Cursor} {e : Error} {left : Cursor} (more : List UInt8),
    step c = .error e left → e.isShortage = false →
      step (c.extend more) = .error e (left.extend more)

theorem stable_pure
    (a : α) :
    Stable (pure a) := by
  constructor
  · intro c b behind more done
    cases done
    rfl
  · intro c e left more refused
    cases refused

theorem stable_throw
    (e : Error) :
    Stable (throw e : Read α) := by
  constructor
  · intro c a behind more done
    cases done
  · intro c e left more refused _
    cases refused
    rfl

theorem stable_corrupt
    (start : Nat) (cause : Corruption) :
    Stable (corrupt start cause : Read α) :=
  stable_throw _

theorem stable_offset : Stable offset := by
  constructor
  · intro c n behind more done
    cases done
    rfl
  · intro c e left more refused
    cases refused

theorem Stable.bind
    {first : Read α} {next : α → Read β}
    (h : Stable first)
    (h' : ∀ a, Stable (next a)) :
    Stable (first >>= next) := by
  constructor
  · intro c b behind more done
    obtain ⟨a, between, head, tail⟩ := bind_eq_ok_iff.1 done
    rw [bind_of_eq_ok (h.ok more head)]
    exact (h' a).ok more tail
  · intro c e left more refused other
    rcases bind_eq_error_iff.1 refused with head | ⟨a, between, head, tail⟩
    · exact bind_of_eq_error (h.error more head other)
    · rw [bind_of_eq_ok (h.ok more head)]
      exact (h' a).error more tail other

theorem stable_take
    (n : Nat) :
    Stable (take n) := by
  constructor
  · intro c bytes behind more done
    by_cases enough : n ≤ c.remaining
    · have enough_more : n ≤ (c.extend more).remaining := by
        rw [Cursor.remaining_extend]
        omega
      rw [take_of_le enough] at done
      cases done
      rw [take_of_le enough_more, Cursor.skip_extend more enough, Cursor.extend,
        List.take_append_of_le_length enough]
    · rw [take_of_lt (Nat.lt_of_not_le enough)] at done
      cases done
  · intro c e left more refused other
    by_cases enough : n ≤ c.remaining
    · rw [take_of_le enough] at refused
      cases refused
    · rw [take_of_lt (Nat.lt_of_not_le enough)] at refused
      cases refused
      cases other

theorem stable_word
    (width : Nat) :
    Stable (word width) := by
  refine (stable_take width).bind fun bytes => ?_
  -- What follows depends on the byte order alone.
  constructor
  · intro c n behind more done
    cases done
    rfl
  · intro c e left more refused
    cases refused

theorem stable_byte : Stable byte :=
  (stable_word 1).bind fun _ => stable_pure _

theorem stable_word16 : Stable word16 :=
  (stable_word 2).bind fun _ => stable_pure _

theorem stable_word32 : Stable word32 :=
  (stable_word 4).bind fun _ => stable_pure _

theorem stable_word64 : Stable word64 :=
  (stable_word 8).bind fun _ => stable_pure _

theorem stable_int64 : Stable int64 :=
  stable_word64.bind fun _ => stable_pure _

theorem stable_real : Stable real :=
  stable_word64.bind fun _ => stable_pure _

theorem stable_boolean : Stable boolean := by
  refine stable_offset.bind fun start => stable_byte.bind fun stored => ?_
  split
  · exact stable_pure _
  · split
    · exact stable_pure _
    · exact stable_corrupt _ _

theorem stable_utf8
    (n : Nat) :
    Stable (utf8 n) := by
  refine stable_offset.bind fun start => (stable_take n).bind fun bytes => ?_
  split
  · exact stable_pure _
  · exact stable_corrupt _ _

theorem stable_text : Stable text :=
  stable_word64.bind fun _ => stable_utf8 _

theorem stable_shortText : Stable shortText :=
  stable_byte.bind fun _ => stable_utf8 _

theorem stable_character : Stable character := by
  refine stable_offset.bind fun start => stable_byte.bind fun lead => ?_
  split
  · exact stable_corrupt _ _
  · refine (stable_take _).bind fun bytes => ?_
    split
    · exact stable_corrupt _ _
    · split
      · exact stable_corrupt _ _
      · split
        · exact stable_pure _
        · exact stable_corrupt _ _

theorem stable_checkCount
    (start : Nat) (what : String) (count least : Nat) :
    Stable (checkCount start what count least) := by
  constructor
  · intro c n behind more done
    obtain ⟨rfl, rfl, fits⟩ := checkCount_eq_ok_iff.1 done
    refine checkCount_eq_ok_iff.2 ⟨rfl, rfl, ?_⟩
    rw [Cursor.remaining_extend]
    omega
  · intro c e left more refused other
    by_cases fits : Size.mul count (max least 1) ≤ c.remaining
    · rw [checkCount_eq_ok_iff.2 ⟨rfl, rfl, fits⟩] at refused
      cases refused
    · rw [checkCount_of_lt (Nat.lt_of_not_le fits)] at refused
      cases refused
      cases other

theorem stable_count
    (what : String) (least : Nat) :
    Stable (count what least) :=
  stable_offset.bind fun _ => stable_word64.bind fun _ => stable_checkCount _ _ _ _

theorem stable_shortCount
    (what : String) (least : Nat) :
    Stable (shortCount what least) :=
  stable_offset.bind fun _ => stable_byte.bind fun _ => stable_checkCount _ _ _ _

section Tables

variable {item : Read α} (h : Stable item)
include h

theorem Stable.repeated
    (n : Nat) :
    Stable (repeated item n) := by
  induction n with
  | zero =>
      exact stable_pure _
  | succ n ih =>
      exact h.bind fun first => ih.bind fun others => stable_pure _

theorem Stable.table
    (what : String) (least : Nat) :
    Stable (table what least item) :=
  (stable_count what least).bind fun n => h.repeated n

theorem Stable.shortTable
    (what : String) (least : Nat) :
    Stable (shortTable what least item) :=
  (stable_shortCount what least).bind fun n => h.repeated n

end Tables

end Read
end StackCode
