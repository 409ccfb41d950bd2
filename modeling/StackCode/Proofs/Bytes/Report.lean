import StackCode.Proofs.Bytes.Character
import StackCode.Proofs.Image.Reading

/-!
# Reports on bytes

An error of the reader is a report: it names an offset, and claims something about the bytes that
are found there. A report is *truthful* when its claim can be checked against the bytes alone,
without the state in which the reader was.

Each read starts from a cursor that stands somewhere in the bytes. It either goes on to another such
cursor or ends in a truthful report; we then call its outcome *sound*. Soundness is passed along
sequences. Where an error names the offset of a byte that was read before, the statement about this
byte is carried to the place where the error is raised. What was read in front of an offset stays
true while cursors do not go back behind it.

**Results.**
* `Corruption.Truthful`: what each kind of report claims.
* `Read.Reports.bind`: sequences of reads.
* `Read.reports_text`, `Read.reports_character`, `Read.Reports.table`: reads that check what they
  have read.
-/

namespace StackCode

/-- The number stands as a word at an offset of some bytes. -/
def WordAt (order : ByteOrder) (bytes : List UInt8) (offset width n : Nat) : Prop :=
  n < Nat.pow 256 width ∧ (bytes.drop offset).take width = order.encode width n

/-- The tables of a code image as they are named in reports, with the width of the count and the
least size of an item. -/
def countedTables : List (String × Nat × Nat) :=
  [("global", 8, 8), ("constant", 8, 1), ("line map entry", 8, 7), ("instruction", 8, 1),
    ("string list", 1, 1), ("free variable", 1, 2)]

/-- The bytes at an offset were announced as text, but are the text of nothing. -/
def BadText (order : ByteOrder) (bytes : List UInt8) (offset : Nat) : Prop :=
  ∃ width n, (width = 1 ∨ width = 8) ∧ width ≤ offset ∧
    WordAt order bytes (offset - width) width n ∧ offset + n ≤ bytes.length ∧
    ∀ value, (bytes.drop offset).take n ≠ Write.utf8 value

/-- What the bytes at an offset are like when a corruption is reported there. -/
def Corruption.Truthful (settings : Settings) (bytes : List UInt8) (offset : Nat) :
    Corruption → Prop
  | unexpectedEnd needed remaining =>
    offset + remaining = bytes.length ∧ remaining < needed
  | countTooLarge what count remaining =>
    ∃ width least, (what, width, least) ∈ countedTables ∧
      WordAt settings.order bytes offset width count ∧
      offset + width + remaining = bytes.length ∧ remaining < count * least
  | invalidKind tag => bytes[offset]? = some tag ∧ 6 < tag.toNat
  | invalidVariableKind tag => bytes[offset]? = some tag ∧ 1 < tag.toNat
  | invalidBoolean byte => bytes[offset]? = some byte ∧ 1 < byte.toNat
  | invalidText =>
    BadText settings.order bytes offset ∨
      offset < bytes.length ∧ ∀ ch, ¬ String.utf8EncodeChar ch <+: bytes.drop offset
  | invalidCharacter code =>
    utf8Form code <+: bytes.drop offset ∧ (0xD800 ≤ code ∧ code < 0xE000 ∨ 0x110000 ≤ code)
  | recordConstant => bytes[offset]? = some 6
  | nestingTooDeep limit =>
    limit = settings.maxDepth.toNat ∧ 0 < offset ∧ bytes[offset - 1]? = some 5 ∧
      limit < (bytes.take offset).count 5 ∧
      ∃ c, Cursor.Nested settings bytes (limit + 1) c ∧ c.offset = offset
  | tooManyOperands count =>
    WordAt settings.order bytes offset 8 count.toNat ∧ settings.maxOperands < count
  | trailingBytes count =>
    settings.rejectTrailing = true ∧ offset + count = bytes.length ∧ 0 < count

/-- The error reports the state of the bytes, and does so truthfully. -/
def Error.Truthful (settings : Settings) (bytes : List UInt8) : Error → Prop
  | .corrupt offset cause => offset ≤ bytes.length ∧ cause.Truthful settings bytes offset
  | .invalidOpcode offset code => bytes[offset]? = some code ∧ 25 < code.toNat
  | _ => False

namespace Cursor

/-- The cursor stands somewhere in the bytes, not before a given offset. -/
structure In (order : ByteOrder) (bytes : List UInt8) (low : Nat) (c : Cursor) : Prop where
  low_le : low ≤ c.offset
  offset_le : c.offset ≤ bytes.length
  rest : c.rest = bytes.drop c.offset
  order_eq : c.order = order

variable {order : ByteOrder} {bytes : List UInt8} {low : Nat} {c behind : Cursor}

theorem in_start
    (order : ByteOrder) (bytes : List UInt8) :
    (start order bytes).In order bytes 0 :=
  ⟨Nat.le_refl _, Nat.zero_le _, rfl, rfl⟩

theorem In.from_here
    (h : c.In order bytes low) :
    c.In order bytes c.offset :=
  ⟨Nat.le_refl _, h.offset_le, h.rest, h.order_eq⟩

theorem In.of_le
    {lower : Nat}
    (h : c.In order bytes low)
    (le : lower ≤ low) :
    c.In order bytes lower :=
  ⟨Nat.le_trans le h.low_le, h.offset_le, h.rest, h.order_eq⟩

theorem In.offset_add_remaining
    (h : c.In order bytes low) :
    c.offset + c.remaining = bytes.length := by
  have length : c.remaining = bytes.length - c.offset := by
    rw [remaining, h.rest, List.length_drop]
  have within := h.offset_le
  omega

theorem In.of_covers
    {image : Image}
    (h : c.In order bytes low)
    (covers : c.Covers image behind) :
    behind.In order bytes low := by
  have length := covers.length_le_remaining
  have whole := h.offset_add_remaining
  have offset := covers.offset
  have above := h.low_le
  refine ⟨by omega, by omega, ?_, covers.order.trans h.order_eq⟩
  have rest : image c.order ++ behind.rest = bytes.drop c.offset := covers.rest.symm.trans h.rest
  rw [offset, ← List.drop_drop, ← rest, List.drop_left]

theorem In.wordAt
    {width n : Nat}
    (h : c.In order bytes low)
    (below : n < Nat.pow 256 width)
    (covers : c.Covers (.word width n) behind) :
    WordAt order bytes c.offset width n := by
  refine ⟨below, ?_⟩
  have length : (order.encode width n).length = width := order.length_encode width n
  rw [← h.rest, covers.rest, h.order_eq]
  exact List.take_left' length

theorem In.getElem?_of_byte
    {b : UInt8}
    (h : c.In order bytes low)
    (covers : c.Covers (.byte b) behind) :
    bytes[c.offset]? = some b := by
  rw [Image.byte_eq_raw] at covers
  have rest : bytes.drop c.offset = b :: behind.rest := h.rest.symm.trans covers.rest
  have head := congrArg (·[0]?) rest
  simpa using head

end Cursor

namespace Read

open Step

variable {α β : Type} {settings : Settings} {bytes : List UInt8} {low : Nat} {c : Cursor}

/-- A read goes on in the bytes, or ends with a truthful report. -/
def Sound (settings : Settings) (bytes : List UInt8) (low : Nat) :
    EStateM.Result Error Cursor α → Prop :=
  Ends (fun _ behind => behind.In settings.order bytes low) (Error.Truthful settings bytes)

/-- From everywhere in the bytes behind an offset, the outcome of the step is sound. -/
def Reports (settings : Settings) (bytes : List UInt8) (low : Nat) (step : Read α) : Prop :=
  ∀ c : Cursor, c.In settings.order bytes low → Sound settings bytes low (step c)

theorem Sound.of_le
    {lower : Nat} {outcome : EStateM.Result Error Cursor α}
    (h : Sound settings bytes low outcome)
    (le : lower ≤ low) :
    Sound settings bytes lower outcome :=
  Ends.imp h (fun _ _ _ inside => inside.of_le le) fun _ _ _ truthful => truthful

theorem reports_pure
    (a : α) :
    Reports settings bytes low (pure a) :=
  fun _ inside => inside

theorem Reports.bind
    {first : Read α} {next : α → Read β}
    (h : Reports settings bytes low first)
    (h' : ∀ a, Reports settings bytes low (next a)) :
    Reports settings bytes low (first >>= next) :=
  fun c inside => Ends.bind (h c inside) fun a between _ inside' => h' a between inside'

theorem reports_take
    (n : Nat) :
    Reports settings bytes low (take n) := by
  intro c inside
  by_cases enough : n ≤ c.remaining
  · have taken := take_of_le enough
    rw [taken]
    exact inside.of_covers (take_eq_ok_iff.1 taken).2
  · rw [take_of_lt (Nat.lt_of_not_le enough)]
    exact ⟨inside.offset_le, inside.offset_add_remaining, Nat.lt_of_not_le enough⟩

theorem reports_word
    (width : Nat) :
    Reports settings bytes low (word width) :=
  (reports_take width).bind fun _ _ inside => inside

theorem reports_byte : Reports settings bytes low byte :=
  (reports_word 1).bind fun _ => reports_pure _

theorem reports_word16 : Reports settings bytes low word16 :=
  (reports_word 2).bind fun _ => reports_pure _

theorem reports_word32 : Reports settings bytes low word32 :=
  (reports_word 4).bind fun _ => reports_pure _

theorem reports_word64 : Reports settings bytes low word64 :=
  (reports_word 8).bind fun _ => reports_pure _

theorem reports_int64 : Reports settings bytes low int64 :=
  reports_word64.bind fun _ => reports_pure _

theorem reports_real : Reports settings bytes low real :=
  reports_word64.bind fun _ => reports_pure _

theorem reports_boolean : Reports settings bytes low boolean := by
  intro c inside
  rw [boolean, offset_bind]
  refine Ends.bind (reports_byte c inside) fun stored between read inside' => ?_
  have here : bytes[c.offset]? = some stored := inside.getElem?_of_byte (byte_eq_ok_iff.1 read)
  split
  · exact inside'
  · next not_zero =>
    split
    · exact inside'
    · next not_one =>
      have large : 1 < stored.toNat := by
        rw [← UInt8.toNat_inj] at not_zero not_one
        simp only [UInt8.toNat_zero, UInt8.toNat_one] at not_zero not_one
        omega
      exact ⟨inside.offset_le, here, large⟩

/-- The length that was read in front of a text is part of the report on the text. -/
theorem sound_utf8
    {before between : Cursor} {width n : Nat}
    (inside : before.In settings.order bytes low)
    (width_eq : width = 1 ∨ width = 8)
    (below : n < Nat.pow 256 width)
    (covers : before.Covers (.word width n) between) :
    Sound settings bytes low (utf8 n between) := by
  have inside_between : between.In settings.order bytes low := inside.of_covers covers
  rw [utf8, offset_bind]
  refine Ends.bind (reports_take n between inside_between) fun taken behind read inside_behind => ?_
  obtain ⟨length, covers_taken⟩ := take_eq_ok_iff.1 read
  have same : (bytes.drop between.offset).take n = taken := by
    rw [← inside_between.rest, covers_taken.rest]
    exact List.take_left' length
  cases found : String.fromUTF8? taken.toByteArray with
  | some value =>
      exact inside_behind
  | none =>
      have offset : between.offset = before.offset + width := by
        rw [covers.offset, Image.length_word]
      have fits : n ≤ between.remaining := by
        rw [← length]
        exact covers_taken.length_le_remaining
      have whole := inside_between.offset_add_remaining
      refine ⟨inside_between.offset_le, Or.inl ⟨width, n, width_eq, by omega, ?_, by omega, ?_⟩⟩
      · rw [offset, Nat.add_sub_cancel]
        exact inside.wordAt below covers
      · intro value form
        rw [fromUTF8?_eq_some_iff.2 (same.symm.trans form)] at found
        cases found

theorem reports_text : Reports settings bytes low text := by
  intro c inside
  refine Ends.bind (reports_word64 c inside) fun w between read _ => ?_
  exact sound_utf8 inside (Or.inr rfl) w.toNat_lt (word64_eq_ok_iff.1 read)

theorem reports_shortText : Reports settings bytes low shortText := by
  intro c inside
  refine Ends.bind (reports_byte c inside) fun b between read _ => ?_
  exact sound_utf8 inside (Or.inl rfl) b.toNat_lt (byte_eq_ok_iff.1 read)

/-- What the reader makes of a character is decided by the bytes in front of it. -/
theorem not_prefix_of_character_ne_ok
    (refused : ∀ ch behind, character c ≠ .ok ch behind) :
    ∀ ch, ¬ String.utf8EncodeChar ch <+: c.rest := by
  intro ch ⟨rest, form⟩
  exact refused ch _ (character_of_rest_eq form.symm)

theorem reports_character : Reports settings bytes low character := by
  intro c inside
  -- That bytes are the form of no character follows at the end, for all refusals that say so.
  have ends : Ends (fun _ behind => behind.In settings.order bytes low)
      (fun e => e.Truthful settings bytes ∨
        e = .corrupt c.offset .invalidText ∧ c.offset < bytes.length) (character c) := by
    rw [character, offset_bind]
    refine Ends.bind ((reports_byte c inside).imp (fun _ _ _ h => h) fun _ _ _ h => Or.inl h)
      fun lead between read inside_between => ?_
    have covers := byte_eq_ok_iff.1 read
    have within : c.offset < bytes.length :=
      (List.getElem?_eq_some_iff.1 (inside.getElem?_of_byte covers)).1
    cases announced : leadByte lead with
    | none =>
        exact Or.inr ⟨rfl, within⟩
    | some kind =>
        obtain ⟨following, bits, least⟩ := kind
        refine Ends.bind ((reports_take following between inside_between).imp (fun _ _ _ h => h)
          fun _ _ _ h => Or.inl h) fun others behind taken inside_behind => ?_
        obtain ⟨length, covers_others⟩ := take_eq_ok_iff.1 taken
        cases added : continued bits others with
        | none =>
            exact Or.inr ⟨rfl, within⟩
        | some code =>
            dsimp only
            split_ifs with small valid
            · exact Or.inr ⟨rfl, within⟩
            · exact inside_behind
            · have form := cons_eq_utf8Form announced length added (Nat.le_of_not_lt small)
              refine Or.inl ⟨inside.offset_le, ?_, ?_⟩
              · rw [← form, ← inside.rest, covers.rest, covers_others.rest, Image.byte_eq_raw]
                exact List.prefix_append (lead :: others) behind.rest
              · simp only [Nat.isValidChar] at valid
                omega
  refine ends.imp (fun _ _ _ h => h) ?_
  intro e left refused report
  rcases report with truthful | ⟨rfl, within⟩
  · exact truthful
  · refine ⟨inside.offset_le, Or.inr ⟨within, ?_⟩⟩
    rw [← inside.rest]
    refine not_prefix_of_character_ne_ok fun ch behind done => ?_
    cases refused.symm.trans done

theorem reports_checkCount
    {before between : Cursor} {what : String} {width count least : Nat}
    (known : (what, width, least) ∈ countedTables)
    (inside : before.In settings.order bytes low)
    (below : count < Nat.pow 256 width)
    (covers : before.Covers (.word width count) between) :
    Sound settings bytes low (checkCount before.offset what count least between) := by
  have positive : ∀ table ∈ countedTables, max table.2.2 1 = table.2.2 := by decide
  have least_eq : max least 1 = least := positive _ known
  have inside_between := inside.of_covers covers
  by_cases fits : Size.mul count (max least 1) ≤ between.remaining
  · rw [checkCount_eq_ok_iff.2 ⟨rfl, rfl, fits⟩]
    exact inside_between
  · have excess := Nat.lt_of_not_le fits
    rw [checkCount_of_lt excess]
    have offset : between.offset = before.offset + width := by
      rw [covers.offset, Image.length_word]
    refine ⟨inside.offset_le, width, least, known, inside.wordAt below covers, ?_, ?_⟩
    · rw [← offset]
      exact inside_between.offset_add_remaining
    · rw [least_eq] at excess
      exact Nat.lt_of_lt_of_le excess (Size.clip_le _)

theorem reports_count
    {what : String} {least : Nat}
    (known : (what, 8, least) ∈ countedTables) :
    Reports settings bytes low (count what least) := by
  intro c inside
  rw [count, offset_bind]
  refine Ends.bind (reports_word64 c inside) fun w between read _ => ?_
  exact reports_checkCount known inside w.toNat_lt (word64_eq_ok_iff.1 read)

theorem reports_shortCount
    {what : String} {least : Nat}
    (known : (what, 1, least) ∈ countedTables) :
    Reports settings bytes low (shortCount what least) := by
  intro c inside
  rw [shortCount, offset_bind]
  refine Ends.bind (reports_byte c inside) fun b between read _ => ?_
  exact reports_checkCount known inside b.toNat_lt (byte_eq_ok_iff.1 read)

section Tables

variable {item : Read α} {what : String} {least : Nat}

theorem Reports.repeated
    (h : Reports settings bytes low item)
    (n : Nat) :
    Reports settings bytes low (repeated item n) := by
  induction n with
  | zero =>
      exact reports_pure _
  | succ n ih =>
      exact h.bind fun first => ih.bind fun others => reports_pure _

theorem Reports.table
    (h : Reports settings bytes low item)
    (known : (what, 8, least) ∈ countedTables) :
    Reports settings bytes low (table what least item) :=
  (reports_count known).bind fun n => h.repeated n

theorem Reports.shortTable
    (h : Reports settings bytes low item)
    (known : (what, 1, least) ∈ countedTables) :
    Reports settings bytes low (shortTable what least item) :=
  (reports_shortCount known).bind fun n => h.repeated n

end Tables

end Read
end StackCode
