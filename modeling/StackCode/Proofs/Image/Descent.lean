import StackCode.Proofs.Image.Size

/-!
# How deep the reader goes down

`Read.codeTree` recurses on the levels of nesting that the settings still allow. It is not this
limit that makes reading end: the limit can be as great as a word. `Read.descend` reads the same
trees and counts the functions around the one that it reads; its recursion is on the bytes that are
left.

What a record does with the reader of nested functions is told from outside. It asks the reader for
what stands at a cursor if every error that the reader may have there becomes the error of the
record. The outcome hangs on nothing else of the reader, and whatever is asked for stands at least
thirty bytes further on: behind the counts in front of the pool and the tag of a function. Both are
shown of a step from its parts, as with `Stable` and `Reports`.

**Results.**
* `Read.asksBehind_record`: a record asks for functions only thirty bytes further on.
* `Read.descend_eq_codeTree`: counting down and counting up read the same.
* `Read.Enters.before`: thirty bytes lie in front of a function for each function around it.
* `Program.decode_bounded`: reading ends, and what it returns is no larger than what it reads.
-/

namespace StackCode
namespace Cursor

/-- The other cursor stands in the same bytes, at least `n` of them further on. -/
structure Before (c : Cursor) (n : Nat) (further : Cursor) : Prop where
  offset : c.offset + n ≤ further.offset
  whole : further.offset + further.remaining = c.offset + c.remaining

variable {c between further : Cursor} {m n : Nat}

theorem Before.refl
    (c : Cursor) :
    c.Before 0 c :=
  ⟨Nat.le_refl _, rfl⟩

theorem Before.trans
    (h : c.Before m between)
    (h' : between.Before n further) :
    c.Before (m + n) further := by
  constructor
  · have first := h.offset
    have second := h'.offset
    omega
  · exact h'.whole.trans h.whole

theorem Before.of_le
    (h : c.Before n further)
    (le : m ≤ n) :
    c.Before m further :=
  ⟨Nat.le_trans (Nat.add_le_add_left le c.offset) h.offset, h.whole⟩

/-- What lies between two cursors is missing from the bytes that are left. -/
theorem Before.remaining_add_le
    (h : c.Before n further) :
    further.remaining + n ≤ c.remaining := by
  have offset := h.offset
  have whole := h.whole
  omega

theorem Covers.before
    {image : Image} {behind : Cursor}
    (h : c.Covers image behind)
    (size : n ≤ (image c.order).length) :
    c.Before n behind := by
  have offset := h.offset
  have rest := congrArg List.length h.rest
  rw [List.length_append] at rest
  constructor
  · omega
  · rw [remaining, remaining]
    omega

end Cursor

namespace Read

open Step

variable {α β : Type} {k m n : Nat} {settings : Settings} {c inner : Cursor}
variable {nested : Read CodeTree} {valid : CodeTree → Prop} {image : CodeTree → Image}

/-- The step moves at least `n` bytes on when it succeeds. -/
def Advances (n : Nat) (step : Read α) : Prop :=
  ∀ (c : Cursor) (a : α) (behind : Cursor), step c = .ok a behind → c.Before n behind

/-- Whatever the step returns, it has read the image of it. -/
theorem advances_of_covers
    {step : Read α} {image : α → Image}
    (covers : ∀ {c a behind}, step c = .ok a behind → c.Covers (image a) behind)
    (size : ∀ a order, n ≤ (image a order).length) :
    Advances n step :=
  fun c a _ done => (covers done).before (size a c.order)

theorem advances_offset : Advances 0 offset := by
  intro c start behind done
  obtain ⟨_, rfl⟩ := offset_eq_ok_iff.1 done
  exact .refl c

theorem advances_byte : Advances 1 byte :=
  advances_of_covers byte_eq_ok_iff.1 fun _ _ => by simp

theorem advances_word32 : Advances 4 word32 :=
  advances_of_covers word32_eq_ok_iff.1 fun _ _ => by simp

theorem advances_count
    {what : String} {least : Nat} :
    Advances 8 (count what least) :=
  advances_of_covers (fun done => (count_eq_ok_iff.1 done).1.2) fun _ _ => by simp

theorem advances_operandCount
    {limit : UInt64} :
    Advances 8 (operandCount limit) :=
  advances_of_covers (fun done => (operandCount_eq_ok_iff.1 done).2) fun _ _ => by simp

theorem advances_nameList : Advances 1 nameList :=
  advances_of_covers (fun done => (nameList_eq_ok_iff.1 done).2) fun _ _ => by
    simp [Image.nameList, Image.shortTable]

theorem advances_globals : Advances 8 (table "global" 8 text) := by
  have texts : Accepts text (fun name => name.utf8ByteSize < UInt64.size) Image.text :=
    fun _ _ _ => text_eq_ok_iff
  have covers {c behind : Cursor} {items : List String}
      (done : table "global" 8 text c = .ok items behind) :
      c.Covers (.table .text items) behind :=
    ((table_eq_ok_iff 8 texts fun name _ => Image.le_length_text name).1 done).2
  exact advances_of_covers covers fun _ _ => by simp [Image.table]

theorem advances_poolEntry
    (h : Accepts nested valid image) :
    Advances 1 (poolEntry nested) :=
  advances_of_covers (fun done => ((poolEntry_eq_ok_iff h).1 done).2)
    (Image.le_length_poolEntry image)

/-- A step at a cursor asks the reader of nested functions for what stands at another cursor: any
error that the reader has there is what the step ends in. -/
def Asks (step : Read CodeTree → Read α) (nested : Read CodeTree) (c inner : Cursor) : Prop :=
  ∀ e left, step (Function.update nested inner (.error e left)) c = .error e left

/-- The step asks for nested functions only `n` bytes further on, and its outcome hangs on nothing
else of the reader of nested functions. -/
structure AsksBehind (n : Nat) (step : Read CodeTree → Read α) (nested : Read CodeTree) :
    Prop where
  further : ∀ c inner, Asks step nested c inner → c.Before n inner
  only : ∀ (other : Read CodeTree) (c : Cursor),
    (∀ inner, Asks step nested c inner → other inner = nested inner) → step other c = step nested c

/-- A step with one outcome, whatever error it is told, has not asked. -/
theorem not_asks_of_eq
    {step : Read CodeTree → Read α} {outcome : EStateM.Result Error Cursor α}
    (same : ∀ e left, step (Function.update nested inner (.error e left)) c = outcome) :
    ¬ Asks step nested c inner := by
  intro asks
  have one := (same .notLoaded c).symm.trans (asks .notLoaded c)
  have another := (same .rootAlreadySet c).symm.trans (asks .rootAlreadySet c)
  cases one.symm.trans another

theorem asksBehind_const
    {step : Read α} :
    AsksBehind n (fun _ => step) nested := by
  constructor
  · intro c inner asks
    exact absurd asks (not_asks_of_eq fun _ _ => rfl)
  · intro other c _
    rfl

/-- The reader of nested functions itself asks where it stands. -/
theorem asksBehind_self : AsksBehind 0 (fun reader => reader) nested := by
  constructor
  · intro c inner asks
    by_cases here : inner = c
    · exact here ▸ .refl c
    · exact absurd asks (not_asks_of_eq fun _ _ => Function.update_of_ne (Ne.symm here) _ _)
  · intro other c agree
    exact agree c fun _ _ => Function.update_self ..

/-- A sequence asks for what its first step asks for, and for what its second asks for behind it. -/
theorem AsksBehind.asks_bind_iff
    {first : Read CodeTree → Read α} {next : Read CodeTree → α → Read β}
    (h : AsksBehind n first nested) :
    Asks (fun reader => first reader >>= next reader) nested c inner ↔
      Asks first nested c inner ∨
        ∃ a between, first nested c = .ok a between ∧
          Asks (fun reader => next reader a) nested between inner := by
  by_cases asked : Asks first nested c inner
  · exact iff_of_true (fun e left => bind_of_eq_error (asked e left)) (Or.inl asked)
  -- Not asked there, the first step goes on as before, whatever it would be told.
  have same (e : Error) (left : Cursor) :
      first (Function.update nested inner (.error e left)) c = first nested c := by
    refine h.only _ c fun other asks => Function.update_of_ne ?_ _ _
    rintro rfl
    exact asked asks
  cases done : first nested c with
  | error e left =>
      have refused (e' : Error) (left' : Cursor) :
          (first (Function.update nested inner (.error e' left')) >>=
            next (Function.update nested inner (.error e' left'))) c = .error e left :=
        bind_of_eq_error ((same e' left').trans done)
      exact iff_of_false (not_asks_of_eq refused) (by simp [asked])
  | ok a between =>
      have goes_on (e : Error) (left : Cursor) :
          (first (Function.update nested inner (.error e left)) >>=
            next (Function.update nested inner (.error e left))) c =
          next (Function.update nested inner (.error e left)) a between :=
        bind_of_eq_ok ((same e left).trans done)
      constructor
      · intro asks
        exact Or.inr ⟨a, between, rfl, fun e left => (goes_on e left).symm.trans (asks e left)⟩
      · rintro (asks | ⟨a, between, ⟨⟩, asks⟩)
        · exact absurd asks asked
        · exact fun e left => (goes_on e left).trans (asks e left)

theorem AsksBehind.bind
    {first : Read CodeTree → Read α} {next : Read CodeTree → α → Read β}
    (h : AsksBehind k first nested)
    (advances : Advances m (first nested))
    (h' : ∀ a, AsksBehind n (fun reader => next reader a) nested)
    (le : k ≤ m + n) :
    AsksBehind k (fun reader => first reader >>= next reader) nested := by
  constructor
  · intro c inner asks
    rcases h.asks_bind_iff.1 asks with asks | ⟨a, between, done, asks⟩
    · exact h.further c inner asks
    · exact ((advances c a between done).trans ((h' a).further between inner asks)).of_le le
  · intro other c agree
    refine Step.bind_congr ?_ fun a between done => ?_
    · exact h.only other c fun inner asks => agree inner (h.asks_bind_iff.2 (Or.inl asks))
    · exact (h' a).only other between fun inner asks =>
        agree inner (h.asks_bind_iff.2 (Or.inr ⟨a, between, done, asks⟩))

/-- A step that asks for nothing pushes what comes behind it further on. -/
theorem AsksBehind.after
    {first : Read α} {next : Read CodeTree → α → Read β}
    (advances : Advances m first)
    (h : ∀ a, AsksBehind n (fun reader => next reader a) nested) :
    AsksBehind (m + n) (fun reader => first >>= next reader) nested :=
  asksBehind_const.bind advances h (Nat.le_refl _)

/-- A step that asks for nothing can follow. -/
theorem AsksBehind.followed
    {first : Read CodeTree → Read α} {next : α → Read β}
    (h : AsksBehind n first nested) :
    AsksBehind n (fun reader => first reader >>= next) nested := by
  constructor
  · intro c inner asks
    rcases h.asks_bind_iff.1 asks with asks | ⟨a, between, _, asks⟩
    · exact h.further c inner asks
    · exact absurd asks (not_asks_of_eq fun _ _ => rfl)
  · intro other c agree
    refine Step.bind_congr ?_ fun _ _ _ => rfl
    exact h.only other c fun inner asks => agree inner (h.asks_bind_iff.2 (Or.inl asks))

theorem AsksBehind.repeated
    {item : Read CodeTree → Read α}
    (h : AsksBehind n item nested)
    (advances : Advances m (item nested))
    (count : Nat) :
    AsksBehind n (fun reader => Read.repeated (item reader) count) nested := by
  induction count with
  | zero =>
      exact asksBehind_const
  | succ count ih =>
      exact h.bind advances (fun first => ih.followed) (Nat.le_add_left n m)

theorem asksBehind_poolEntry : AsksBehind 1 poolEntry nested := by
  change AsksBehind (0 + (1 + 0)) poolEntry nested
  refine .after advances_offset fun start => .after advances_byte fun tag => ?_
  rcases Kind.ofTag? tag with _ | kind
  · exact asksBehind_const
  · cases kind with
    | function =>
        exact asksBehind_self.followed
    | _ =>
        exact asksBehind_const

/-- In front of the first function in a pool stand the counts of the particles and of the globals,
the numbers of operands and of locals, the count of the constants, and a tag. -/
theorem asksBehind_record
    (h : Accepts nested valid image) :
    AsksBehind (1 + (8 + (8 + (4 + (8 + 1))))) (record settings) nested :=
  .after advances_nameList fun _ =>
  .after advances_globals fun _ =>
  .after advances_operandCount fun _ =>
  .after advances_word32 fun _ =>
  .followed <| .after advances_count fun count =>
    asksBehind_poolEntry.repeated (advances_poolEntry h) count

/-- The record of a function inside `depth` others, with a given reader for nested functions. -/
def visit (settings : Settings) (depth : Nat) (nested : Read CodeTree) : Read CodeTree := do
  if settings.maxDepth.toNat < depth then
    corrupt (← offset) (.nestingTooDeep settings.maxDepth.toNat)
  else record settings nested

/-- The record of a function inside `depth` others. The depth is checked against its limit, but the
recursion is on the bytes that are left. -/
def descend (settings : Settings) (depth : Nat) (c : Cursor) :
    EStateM.Result Error Cursor CodeTree :=
  -- What is asked for is always further on, so the condition is never false: `descend_eq_visit`.
  visit settings depth (fun inner =>
    if further : inner.remaining < c.remaining then descend settings (depth + 1) inner
    else .error .notLoaded inner) c
termination_by c.remaining

theorem visit_of_lt
    {depth : Nat}
    (deep : settings.maxDepth.toNat < depth) :
    visit settings depth nested = codeTree settings 0 := by
  rw [visit, if_pos deep]
  rfl

theorem visit_of_le
    {depth : Nat}
    (within : depth ≤ settings.maxDepth.toNat) :
    visit settings depth nested = record settings nested := by
  rw [visit, if_neg (Nat.not_lt.2 within)]

theorem asksBehind_visit_codeTree
    (depth levels : Nat) :
    AsksBehind 30 (visit settings depth) (codeTree settings levels) := by
  by_cases deep : settings.maxDepth.toNat < depth
  · have same : visit settings depth = fun _ => codeTree settings 0 :=
      funext fun _ => visit_of_lt deep
    rw [same]
    exact asksBehind_const
  · have same : visit settings depth = record settings :=
      funext fun _ => visit_of_le (Nat.not_lt.1 deep)
    rw [same]
    exact asksBehind_record fun _ _ _ => codeTree_eq_ok_iff

/-- Counting the levels that are left and counting those that are open comes to the same. -/
theorem descend_eq_codeTree
    {depth levels : Nat}
    (left : settings.maxDepth.toNat + 1 - depth = levels) :
    descend settings depth = codeTree settings levels := by
  induction levels generalizing depth with
  | zero =>
      funext c
      rw [descend]
      exact congrFun (visit_of_lt (by omega)) c
  | succ levels ih =>
      funext c
      have within : depth ≤ settings.maxDepth.toNat := by omega
      have asking : AsksBehind 30 (visit settings depth) (codeTree settings levels) :=
        asksBehind_visit_codeTree depth levels
      rw [codeTree, ← visit_of_le within, descend]
      refine asking.only _ c fun inner asks => ?_
      have less := (asking.further c inner asks).remaining_add_le
      rw [dif_pos (by omega), ih (by omega)]

/-- What is asked for at a depth is thirty bytes further on. -/
theorem asksBehind_descend
    (settings : Settings) (depth : Nat) :
    AsksBehind 30 (visit settings depth) (descend settings (depth + 1)) := by
  rw [descend_eq_codeTree rfl]
  exact asksBehind_visit_codeTree depth _

theorem descend_eq_visit
    (settings : Settings) (depth : Nat) :
    descend settings depth = visit settings depth (descend settings (depth + 1)) := by
  funext c
  rw [descend]
  refine (asksBehind_descend settings depth).only _ c fun inner asks => dif_pos ?_
  have less := ((asksBehind_descend settings depth).further c inner asks).remaining_add_le
  omega

/-- The cursors at which the reading of some bytes enters a function, with the number of functions
around it. -/
inductive Enters (settings : Settings) (bytes : List UInt8) : Nat → Cursor → Prop
  | root :
      Enters settings bytes 0 (Cursor.start settings.order bytes)
  | inside {depth : Nat} {c inner : Cursor} :
      Enters settings bytes depth c →
        Asks (visit settings depth) (descend settings (depth + 1)) c inner →
        Enters settings bytes (depth + 1) inner

/-- Thirty bytes lie in front of a function for each function around it. -/
theorem Enters.before
    {bytes : List UInt8} {depth : Nat}
    (h : Enters settings bytes depth c) :
    (Cursor.start settings.order bytes).Before (30 * depth) c := by
  induction h with
  | root =>
      exact .refl _
  | inside _ asks ih =>
      exact ih.trans ((asksBehind_descend settings _).further _ _ asks)

end Read

namespace Program

/-- Reading an image ends, and what it returns is no larger than what it reads, whatever the
settings. Each function is asked for thirty bytes behind the function around it, so fewer bytes are
left, and the depth stays below a thirtieth of the bytes in front. A program of `n` descriptors
takes `64 * n - 1` bytes, and a byte for every thing that they list. -/
theorem decode_bounded
    (settings : Settings) (bytes : List UInt8) :
    Read.codeTree settings (settings.maxDepth.toNat + 1) = Read.descend settings 0 ∧
    (∀ depth,
      Read.descend settings depth =
        Read.visit settings depth (Read.descend settings (depth + 1))) ∧
    (∀ depth c,
      (∀ inner,
        Read.Asks (Read.visit settings depth) (Read.descend settings (depth + 1)) c inner →
          inner.remaining + 30 ≤ c.remaining) ∧
      ∀ other,
        (∀ inner,
          Read.Asks (Read.visit settings depth) (Read.descend settings (depth + 1)) c inner →
            other inner = Read.descend settings (depth + 1) inner) →
        Read.visit settings depth other c = Read.descend settings depth c) ∧
    (∀ depth c,
      Read.Enters settings bytes depth c →
        30 * depth ≤ c.offset ∧ c.offset + c.remaining = bytes.length ∧
          (bytes.length < UInt64.size → depth + 1 < UInt64.size)) ∧
    ∀ p,
      decode settings bytes = .ok p →
        64 * p.descriptorCount ≤ bytes.length + 1 ∧
          (p.descriptors.toList.map Descriptor.itemCount).sum ≤ bytes.length := by
  refine ⟨(Read.descend_eq_codeTree (Nat.sub_zero _)).symm, Read.descend_eq_visit settings,
    ?_, ?_, ?_⟩
  · intro depth c
    have asking := Read.asksBehind_descend settings depth
    constructor
    · intro inner asks
      exact (asking.further c inner asks).remaining_add_le
    · intro other agree
      rw [Read.descend_eq_visit]
      exact asking.only other c agree
  · intro depth c enters
    obtain ⟨offset, whole⟩ := enters.before
    have start : (Cursor.start settings.order bytes).offset = 0 := rfl
    have all : (Cursor.start settings.order bytes).remaining = bytes.length := rfl
    refine ⟨by omega, by omega, fun small => ?_⟩
    simp only [UInt64.size] at small ⊢
    omega
  · intro p decoded
    obtain ⟨descriptors, items⟩ := counts_le_of_decode decoded
    exact ⟨descriptors, by omega⟩

/-- The image of a function that holds another, both without a name and without code. -/
def twoLevels : List UInt8 :=
  .replicate 21 0 ++ [1] ++ .replicate 7 0 ++ [5] ++ .replicate 97 0

set_option maxRecDepth 4000 in
/-- Both bounds are reached: two functions take 127 bytes, and the second is entered at the
thirtieth. -/
theorem decode_bounded_twoLevels :
    ∃ p inner,
      decode .standard twoLevels = .ok p ∧ p.descriptorCount = 2 ∧
      Read.Enters .standard twoLevels 1 inner ∧ inner.offset = 30 ∧
      inner.remaining + 30 ≤ twoLevels.length ∧
      30 * 1 ≤ inner.offset ∧ 1 + 1 < UInt64.size ∧
      64 * 2 ≤ twoLevels.length + 1 ∧
      (p.descriptors.toList.map Descriptor.itemCount).sum ≤ twoLevels.length := by
  let inner : Cursor := ⟨.replicate 97 0, 30, .little⟩
  have decoded : ∃ p, decode .standard twoLevels = .ok p ∧ p.descriptorCount = 2 := ⟨_, rfl, rfl⟩
  obtain ⟨p, decoded, count⟩ := decoded
  obtain ⟨_, _, measure, depths, sizes⟩ := decode_bounded .standard twoLevels
  have asks : Read.Asks (Read.visit .standard 0) (Read.descend .standard 1)
      (Cursor.start .little twoLevels) inner :=
    fun _ _ => rfl
  have enters : Read.Enters .standard twoLevels 1 inner := .inside .root asks
  obtain ⟨offset, _, small⟩ := depths 1 inner enters
  obtain ⟨descriptors, items⟩ := sizes p decoded
  rw [count] at descriptors
  exact ⟨p, inner, decoded, count, enters, rfl, (measure 0 _).1 inner asks, offset,
    small (by decide), descriptors, items⟩

end Program
end StackCode
