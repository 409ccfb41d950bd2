import StackCode.Proofs.Bytes.Extension
import StackCode.Proofs.Image.Decoding

/-!
# Images with more bytes behind

The reader of code images is put together from stable steps, so it is stable: bytes behind an image
change neither the program nor an error, unless the error is one for want of bytes. A start of an
image that stops short of its end is always refused for want of bytes, as any other verdict would
also be the verdict on the whole image.

**Results.**
* `Read.stable_codeTree`: the reader of trees, by induction on the levels that are left.
* `Program.decode_append`: decoding with bytes added behind, and decoding a part of an image.
-/

namespace StackCode
namespace Read

variable {nested : Read CodeTree}

theorem stable_nameList : Stable nameList := by
  refine (stable_shortText.shortTable _ _).bind fun names => ?_
  split
  · exact stable_pure _
  · exact stable_throw _

theorem stable_capturedVariable : Stable capturedVariable := by
  refine stable_offset.bind fun start => stable_byte.bind fun tag => ?_
  split
  · exact stable_corrupt _ _
  · exact stable_byte.bind fun index => stable_pure _

theorem stable_operand
    (shape : OperandShape) :
    Stable (operand shape) := by
  cases shape with
  | none =>
      exact stable_pure _
  | index =>
      exact stable_word32.bind fun value => stable_pure _
  | captures =>
      exact (stable_capturedVariable.shortTable _ _).bind fun list => stable_pure _
  | names =>
      exact stable_nameList.bind fun list => stable_pure _
  | record =>
      exact stable_shortText.bind fun name => stable_nameList.bind fun fields => stable_pure _
  | field =>
      exact stable_shortText.bind fun name => stable_pure _

theorem stable_instruction : Stable instruction := by
  refine stable_offset.bind fun start => stable_byte.bind fun code => ?_
  split
  · exact stable_throw _
  · refine (stable_operand _).bind fun operand => ?_
    split
    · exact stable_pure _
    · exact stable_throw _

theorem stable_lineRecord : Stable lineRecord := by
  refine stable_word32.bind fun start => stable_boolean.bind fun isLine => ?_
  split
  · exact stable_word16.bind fun number => stable_pure _
  · exact stable_text.bind fun name => stable_pure _

theorem stable_poolEntry
    (h : Stable nested) :
    Stable (poolEntry nested) := by
  refine stable_offset.bind fun start => stable_byte.bind fun tag => ?_
  split
  · exact stable_corrupt _ _
  · exact stable_pure _
  · exact stable_int64.bind fun value => stable_pure _
  · exact stable_real.bind fun value => stable_pure _
  · exact stable_boolean.bind fun value => stable_pure _
  · exact stable_character.bind fun value => stable_pure _
  · exact h.bind fun tree => stable_pure _
  · exact stable_corrupt _ _

theorem stable_operandCount
    (limit : UInt64) :
    Stable (operandCount limit) := by
  refine stable_offset.bind fun start => stable_word64.bind fun count => ?_
  split
  · exact (stable_corrupt _ _).bind fun _ => stable_pure _
  · exact stable_pure _

theorem stable_record
    (settings : Settings)
    (h : Stable nested) :
    Stable (record settings nested) :=
  stable_nameList.bind fun _ =>
  (stable_text.table _ _).bind fun _ =>
  (stable_operandCount _).bind fun _ =>
  stable_word32.bind fun _ =>
  ((stable_poolEntry h).table _ _).bind fun _ =>
  stable_text.bind fun _ =>
  stable_text.bind fun _ =>
  stable_word16.bind fun _ =>
  (stable_lineRecord.table _ _).bind fun _ =>
  (stable_instruction.table _ _).bind fun _ =>
  stable_pure _

theorem stable_codeTree
    (settings : Settings) (levels : Nat) :
    Stable (codeTree settings levels) := by
  induction levels with
  | zero =>
      exact stable_offset.bind fun start => stable_corrupt _ _
  | succ levels ih =>
      exact stable_record settings ih

end Read

namespace Program

variable {settings : Settings} {bytes : List UInt8} {p : Program} {behind : Cursor} {e : Error}

theorem decodeStart_append_of_ok
    (more : List UInt8)
    (h : decodeStart settings bytes = .ok (p, behind)) :
    decodeStart settings (bytes ++ more) = .ok (p, behind.extend more) := by
  obtain ⟨tree, readable, covers, made⟩ := decodeStart_eq_ok_iff.1 h
  have read := codeTree_start_eq_ok_iff.2 ⟨readable, covers⟩
  have read_more := (Read.stable_codeTree settings _).ok more read
  have covers_more := (codeTree_start_eq_ok_iff.1 read_more).2
  exact decodeStart_eq_ok_iff.2 ⟨tree, readable, covers_more, made⟩

theorem decodeStart_append_of_error
    (more : List UInt8)
    (h : decodeStart settings bytes = .error e)
    (other : e.isShortage = false) :
    decodeStart settings (bytes ++ more) = .error e := by
  obtain ⟨left, refused⟩ := decodeStart_eq_error_iff.1 h
  exact decodeStart_eq_error_iff.2
    ⟨left.extend more, (Read.stable_codeTree settings _).error more refused other⟩

/-- A part of an image that stops before its end is refused for want of bytes. -/
theorem decodeStart_of_part
    {part more : List UInt8}
    (h : decodeStart settings (part ++ more) = .ok (p, behind))
    (stops : part.length < behind.offset) :
    ∃ e, decodeStart settings part = .error e ∧ e.isShortage = true := by
  cases start : decodeStart settings part with
  | ok result =>
      obtain ⟨p', behind'⟩ := result
      have within := offset_eq_of_decodeStart start
      cases (decodeStart_append_of_ok more start).symm.trans h
      change part.length < behind'.offset at stops
      omega
  | error e =>
      refine ⟨e, rfl, ?_⟩
      by_contra other
      have refused := decodeStart_append_of_error more start (Bool.eq_false_iff.2 other)
      cases refused.symm.trans h

/-- Where bytes may follow an image, adding bytes changes neither a decoded program nor an error
that has another cause than a want of bytes. No part of an image is decoded: what stops before the
end of the image is refused for want of bytes. -/
theorem decode_append
    (settings : Settings)
    (lenient : settings.rejectTrailing = false)
    (bytes : List UInt8) :
    (∀ p more, decode settings bytes = .ok p → decode settings (bytes ++ more) = .ok p) ∧
    (∀ e more, decode settings bytes = .error e → e.isShortage = false →
      decode settings (bytes ++ more) = .error e) ∧
    ∀ p, decode settings bytes = .ok p →
      ∃ behind, decodeStart settings bytes = .ok (p, behind) ∧
        ∀ part, part <+: bytes.take behind.offset → part ≠ bytes.take behind.offset →
          ∃ e, decode settings part = .error e ∧ e.isShortage = true := by
  have accepts {bytes : List UInt8} {p : Program} {behind : Cursor}
      (start : decodeStart settings bytes = .ok (p, behind)) : decode settings bytes = .ok p :=
    decode_eq_ok_iff.2 ⟨behind, start, fun strict => by cases lenient.symm.trans strict⟩
  refine ⟨?_, ?_, ?_⟩
  · intro p more decoded
    obtain ⟨behind, start, _⟩ := decode_eq_ok_iff.1 decoded
    exact accepts (decodeStart_append_of_ok more start)
  · intro e more refused other
    rcases decode_eq_error_iff.1 refused with start | ⟨_, _, _, ⟨strict, _⟩, _⟩
    · exact decode_of_decodeStart_error (decodeStart_append_of_error more start other)
    · cases lenient.symm.trans strict
  · intro p decoded
    obtain ⟨behind, start, _⟩ := decode_eq_ok_iff.1 decoded
    refine ⟨behind, start, ?_⟩
    intro part starts shorter
    have stops : part.length < behind.offset := by
      have within := offset_eq_of_decodeStart start
      have length : (bytes.take behind.offset).length = behind.offset := by
        rw [List.length_take]
        omega
      rw [← length]
      refine Nat.lt_of_le_of_ne starts.length_le fun same => ?_
      exact shorter (starts.eq_of_length same)
    obtain ⟨more, rfl⟩ := starts.trans (List.take_prefix _ _)
    obtain ⟨e, refused, shortage⟩ := decodeStart_of_part start stops
    exact ⟨e, decode_of_decodeStart_error refused, shortage⟩

/-- The start of an image whose pool holds a value of a kind that there is not. -/
def unknownKind : List UInt8 := .replicate 21 0 ++ [1] ++ .replicate 7 0 ++ [7]

theorem decode_append_leaf :
    (∃ p, decode .standard (.replicate 63 0) = .ok p ∧
      decode .standard (.replicate 63 0 ++ [255, 1]) = .ok p ∧
      ∃ e, decode .standard (.replicate 60 0) = .error e ∧ e.isShortage = true) ∧
    decode .standard (unknownKind ++ [255, 1]) = .error (.corrupt 29 (.invalidKind 7)) := by
  obtain ⟨keeps, _, stops⟩ := decode_append .standard rfl (.replicate 63 0)
  obtain ⟨_, refuses, _⟩ := decode_append .standard rfl unknownKind
  have started : ∃ p behind,
      decodeStart .standard (.replicate 63 0) = .ok (p, behind) ∧ behind.offset = 63 :=
    ⟨_, _, rfl, rfl⟩
  obtain ⟨p, behind, start, offset⟩ := started
  have decoded : decode .standard (.replicate 63 0) = .ok p :=
    decode_eq_ok_iff.2 ⟨behind, start, fun strict => by cases strict⟩
  refine ⟨⟨p, decoded, keeps p _ decoded, ?_⟩, refuses _ _ rfl rfl⟩
  obtain ⟨behind', start', part⟩ := stops p decoded
  cases start.symm.trans start'
  refine part _ ?_ ?_ <;> rw [offset]
  · exact ⟨.replicate 3 0, rfl⟩
  · decide

end Program
end StackCode
