import StackCode.Proofs.Bytes.Words

/-!
# Reads in any order

Values can be asked for one after the other, whatever became of those before: a read that is refused
leaves a cursor from which the next one starts. A scalar that is refused leaves the cursor where it
was. Other reads may have moved it, as when the length of a text is there but not the text.

Along such a run a machine with words mirrors the library, so that it is never trapped. All that has
to be known of a cursor is that it is in the bytes, and every read keeps this.

The product in the check of a count is clipped at the largest word. This cannot be seen from
outside: no bytes are as many as that.

**Results.**
* `WordRead.mirrors_request`: all reads that can be asked for.
* `Read.countsFitting_of_clipped`: when a count is returned.
* `Cursor.exact_run`: what holds after any sequence of reads.
-/

namespace StackCode

/-- The reads that can be asked for, by what they return. -/
inductive Request : Type → Type where
  | byte : Request UInt8
  | word16 : Request UInt16
  | word32 : Request UInt32
  | word64 : Request UInt64
  | int64 : Request Int64
  | real : Request Binary64
  | boolean : Request Bool
  | text : Request String
  | shortText : Request String
  | character : Request Char
  | count (what : String) (least : UInt64) : Request Nat
  | shortCount (what : String) (least : UInt64) : Request Nat

namespace Request

variable {α : Type}

/-- The read of the library. -/
def read : Request α → Read α
  | byte => Read.byte
  | word16 => Read.word16
  | word32 => Read.word32
  | word64 => Read.word64
  | int64 => Read.int64
  | real => Read.real
  | boolean => Read.boolean
  | text => Read.text
  | shortText => Read.shortText
  | character => Read.character
  | count what least => Read.count what least.toNat
  | shortCount what least => Read.shortCount what least.toNat

/-- The read with words. -/
def readWords : Request α → WordRead α
  | byte => WordRead.byte
  | word16 => WordRead.word16
  | word32 => WordRead.word32
  | word64 => WordRead.word64
  | int64 => WordRead.int64
  | real => WordRead.real
  | boolean => WordRead.boolean
  | text => WordRead.text
  | shortText => WordRead.shortText
  | character => WordRead.character
  | count what least => WordRead.count what least
  | shortCount what least => WordRead.shortCount what least

/-- Whether a single value of fixed width is asked for, all of whose forms are valid. -/
def IsScalar : Request α → Prop
  | byte | word16 | word32 | word64 | int64 | real => True
  | boolean | text | shortText | character | count .. | shortCount .. => False

end Request

/-- The cursor behind a read that was asked for. -/
def Cursor.after (c : Cursor) (request : Σ α, Request α) : Cursor :=
  Read.left (request.2.read c)

/-- The cursor behind any number of reads, each of which may have been refused. -/
def Cursor.run (c : Cursor) (requests : List (Σ α, Request α)) : Cursor :=
  requests.foldl Cursor.after c

/-- The position behind a read with words, unless the machine is trapped. -/
def Window.after (w : Window) (request : Σ α, Request α) : Except Trap Window :=
  match request.2.readWords w with
  | .ok _ w' => .ok w'
  | .error (.refused _) w' => .ok w'
  | .error (.trapped trap) _ => .error trap

/-- The position behind any number of reads with words, unless the machine is trapped. -/
def Window.run (w : Window) (requests : List (Σ α, Request α)) : Except Trap Window :=
  requests.foldlM Window.after w

namespace WordRead

/-- Every read that can be asked for is mirrored. -/
theorem mirrors_request
    {α : Type} {bytes : List UInt8}
    (short : bytes.length < UInt64.size)
    (request : Request α) :
    Mirrors bytes request.readWords request.read := by
  cases request with
  | byte =>
      exact mirrors_byte short
  | word16 =>
      exact mirrors_word16 short
  | word32 =>
      exact mirrors_word32 short
  | word64 =>
      exact mirrors_word64 short
  | int64 =>
      exact (mirrors_word64 short).bind fun _ => mirrors_pure _
  | real =>
      exact (mirrors_word64 short).bind fun _ => mirrors_pure _
  | boolean =>
      exact mirrors_boolean short
  | text =>
      exact (mirrors_word64 short).bind fun size => mirrors_utf8 short size
  | shortText =>
      refine (mirrors_byte short).bind fun size => ?_
      rw [← UInt8.toNat_toUInt64]
      exact mirrors_utf8 short size.toUInt64
  | character =>
      exact mirrors_character short
  | count what least =>
      refine (mirrors_offset short).bind fun start => (mirrors_word64 short).bind fun stored => ?_
      exact mirrors_checkCount short start what stored least
  | shortCount what least =>
      refine (mirrors_offset short).bind fun start => (mirrors_byte short).bind fun stored => ?_
      rw [← UInt8.toNat_toUInt64]
      exact mirrors_checkCount short start what stored.toUInt64 least

end WordRead

namespace Read

open Step

variable {α β : Type} {c behind : Cursor}

/-- The read leaves the cursor where it was if it is refused. -/
def Stays (step : Read α) : Prop :=
  ∀ (c : Cursor) (e : Error) (behind : Cursor), step c = .error e behind → behind = c

theorem Stays.map
    {step : Read α}
    (h : Stays step)
    (f : α → β) :
    Stays (do return f (← step)) := by
  intro c e behind refused
  rcases bind_eq_error_iff.1 refused with first | ⟨a, between, _, second⟩
  · exact h c e behind first
  · cases second

/-- A word of any width is read whole or not at all. -/
theorem stays_word
    (width : Nat) :
    Stays (word width) := by
  intro c e behind refused
  rcases bind_eq_error_iff.1 refused with first | ⟨bytes, between, _, second⟩
  · by_cases enough : width ≤ c.remaining
    · rw [take_of_le enough] at first
      cases first
    · rw [take_of_lt (Nat.lt_of_not_le enough)] at first
      cases first
      rfl
  · cases second

theorem stays_of_isScalar
    {request : Request α}
    (scalar : request.IsScalar) :
    Stays request.read := by
  cases request with
  | byte =>
      exact (stays_word 1).map _
  | word16 =>
      exact (stays_word 2).map _
  | word32 =>
      exact (stays_word 4).map _
  | word64 =>
      exact (stays_word 8).map _
  | int64 =>
      exact ((stays_word 8).map _).map _
  | real =>
      exact ((stays_word 8).map _).map _
  | boolean | text | shortText | character | count | shortCount =>
      exact scalar.elim

section Counts

variable {width least n : Nat} {what : String}

/-- The read returns the number that stands next as a word of `width` bytes, exactly when the
product of it and the least size is not greater than the number of bytes behind it. Then the number
itself is not greater. -/
structure CountsFitting (width least : Nat) (counted : Read Nat) (c : Cursor) : Prop where
  eq_ok_iff : ∀ (n : Nat) (behind : Cursor),
    counted c = .ok n behind ↔
      word width c = .ok n behind ∧ n * max least 1 ≤ behind.remaining
  le_remaining : ∀ (n : Nat) (behind : Cursor), counted c = .ok n behind → n ≤ behind.remaining

/-- The clipped product can stand for the product. -/
theorem countsFitting_of_clipped
    {counted : Read Nat}
    (few : c.remaining < Size.largest)
    (clipped : ∀ n behind, counted c = .ok n behind ↔
      (n < Nat.pow 256 width ∧ c.Covers (.word width n) behind) ∧
        Size.mul n (max least 1) ≤ behind.remaining) :
    CountsFitting width least counted c := by
  have eq_ok_iff (n : Nat) (behind : Cursor) :
      counted c = .ok n behind ↔
        word width c = .ok n behind ∧ n * max least 1 ≤ behind.remaining := by
    rw [clipped, word_eq_ok_iff]
    refine and_congr_right fun ⟨_, covers⟩ => Size.clip_le_iff ?_
    exact Nat.lt_of_le_of_lt covers.remaining_le few
  refine ⟨eq_ok_iff, fun n behind done => ?_⟩
  calc n
    _ ≤ n * max least 1 := Nat.le_mul_of_pos_right n (Nat.le_max_right least 1)
    _ ≤ behind.remaining := ((eq_ok_iff n behind).1 done).2

theorem countsFitting_count
    (few : c.remaining < Size.largest) :
    CountsFitting 8 least (count what least) c :=
  countsFitting_of_clipped few fun _ _ => count_eq_ok_iff

theorem countsFitting_shortCount
    (few : c.remaining < Size.largest) :
    CountsFitting 1 least (shortCount what least) c := by
  refine countsFitting_of_clipped few fun n behind => ?_
  rw [shortCount_eq_ok_iff, ← Nat.lt_succ_iff]

end Counts

end Read

namespace Cursor

variable {bytes : List UInt8} {c : Cursor}

/-- What the position of a cursor and the reads from there have to do with words. -/
structure Exact (bytes : List UInt8) (c : Cursor) : Prop where
  position : (c.window bytes).position.toNat = c.offset
  remaining : ∃ n : UInt64,
    WordRead.remaining (c.window bytes) = .ok n (c.window bytes) ∧ n.toNat = c.remaining
  whole : c.offset + c.remaining = bytes.length
  /-- No read with words is trapped, and its outcome is that of the library. -/
  mirrored : ∀ {α : Type} (request : Request α),
    request.readWords (c.window bytes) = Read.inWords bytes (request.read c)
  /-- No read goes back, be it refused or not. -/
  forward : ∀ request : Σ α, Request α, c.offset ≤ (c.after request).offset
  stays : ∀ {α : Type} (request : Request α) (e : Error) (behind : Cursor),
    request.IsScalar → request.read c = .error e behind → behind = c
  count : ∀ (what : String) (least : UInt64),
    Read.CountsFitting 8 least.toNat (Request.count what least).read c
  shortCount : ∀ (what : String) (least : UInt64),
    Read.CountsFitting 1 least.toNat (Request.shortCount what least).read c

theorem exact_of_in
    (short : bytes.length < Size.largest)
    (inside : c.In c.order bytes 0) :
    c.Exact bytes := by
  have whole := inside.offset_add_remaining
  have few : c.remaining < Size.largest := by omega
  have words : bytes.length < UInt64.size := Nat.lt_trans short (by decide)
  refine ⟨WordRead.toNat_position words inside, WordRead.remaining_eq words inside, whole,
    ?_, ?_, ?_, ?_, ?_⟩
  · intro α request
    exact (WordRead.mirrors_request words request c inside).1
  · intro request
    exact (WordRead.mirrors_request words request.2 c inside).2.low_le
  · intro α request e behind scalar refused
    exact Read.stays_of_isScalar scalar c e behind refused
  · intro what least
    exact Read.countsFitting_count few
  · intro what least
    exact Read.countsFitting_shortCount few

/-- One read: the machine is not trapped, and goes to where the cursor goes. -/
theorem after_window
    (words : bytes.length < UInt64.size)
    (inside : c.In c.order bytes 0)
    (request : Σ α, Request α) :
    (c.window bytes).after request = .ok ((c.after request).window bytes) ∧
      (c.after request).In (c.after request).order bytes 0 := by
  obtain ⟨same, behind⟩ := WordRead.mirrors_request words request.2 c inside
  constructor
  · rw [Window.after, same, after]
    cases request.2.read c <;> rfl
  · have order : (c.after request).order = c.order := behind.order_eq
    rw [order]
    exact behind.of_le (Nat.zero_le _)

theorem run_window
    (words : bytes.length < UInt64.size)
    (inside : c.In c.order bytes 0)
    (requests : List (Σ α, Request α)) :
    (c.window bytes).run requests = .ok ((c.run requests).window bytes) ∧
      (c.run requests).In (c.run requests).order bytes 0 := by
  induction requests generalizing c with
  | nil =>
      exact ⟨rfl, inside⟩
  | cons request rest ih =>
      obtain ⟨same, behind⟩ := after_window words inside request
      obtain ⟨same', behind'⟩ := ih behind
      refine ⟨?_, behind'⟩
      rw [Window.run, List.foldlM_cons, same]
      exact same'

/-- After any reads in any order, each of which may have been refused, a machine with words stands
where the cursor stands, and has not been trapped. The offset and the number of bytes that are left
add up to the length of the bytes. From there no read goes back, a scalar that is refused is read
again from the same place, and a count is returned exactly when as many items as it says, of the
least size but at least one byte each, fit into the bytes behind it. -/
theorem exact_run
    (order : ByteOrder)
    (short : bytes.length < 2 ^ 63)
    (requests : List (Σ α, Request α)) :
    let c := (start order bytes).run requests
    (⟨bytes, 0, order⟩ : Window).run requests = .ok (c.window bytes) ∧ c.Exact bytes := by
  have words : bytes.length < UInt64.size := Nat.lt_trans short (by decide)
  have at_start : (start order bytes).In (start order bytes).order bytes 0 := in_start order bytes
  obtain ⟨same, inside⟩ := run_window words at_start requests
  exact ⟨same, exact_of_in (Nat.lt_trans short (by decide)) inside⟩

/-- A count of 2⁶¹, whose product with an item size of eight bytes is no word. -/
def overflowing : List UInt8 := [0, 0, 0, 0, 0, 0, 0, 0x20]

theorem exact_run_overflowing :
    let c := (start .little overflowing).run [⟨_, .count "global" 8⟩, ⟨_, .byte⟩]
    overflowing.length < 2 ^ 63 ∧ c.offset = 8 ∧
      (⟨overflowing, 0, .little⟩ : Window).run [⟨_, .count "global" 8⟩, ⟨_, .byte⟩] =
        .ok (c.window overflowing) ∧ c.Exact overflowing :=
  ⟨by decide, by decide, exact_run .little (by decide) _⟩

end Cursor
end StackCode
