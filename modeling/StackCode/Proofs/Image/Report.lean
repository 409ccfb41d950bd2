import StackCode.Proofs.Bytes.Report
import StackCode.Proofs.Image.Decoding

/-!
# Reports on images

Decoding fails with a report on the bytes and in no other way. The checks that could fail otherwise
cannot: a list whose length was read from one byte is never too long, an operand is read in the
shape that its operation takes, and a tree that was read can be registered.

A function that is nested too deep is refused before any of it is read. The report names the offset
at which the function starts. What lies around it is told from the bytes: each function around it
starts with its opening and the count of its pool, then come whole entries, and then the tag of the
next function. Functions that were read completely are such entries, so they are not counted.

**Results.**
* `Cursor.Nested.tags`: what the bytes in front of a nested function hold.
* `Read.sound_entries`: the pool of a function, by induction on the entries that are left.
* `Read.sound_codeTree`: the reader of trees, by induction on the levels that are left.
* `Program.truthful_of_decode_eq_error`: every error of decoding.
-/

namespace StackCode

/-- A byte that stands for nothing lies behind those that are known to stand for something. -/
theorem lt_toNat_of_eq_none
    {α : Type} {ofByte? : UInt8 → Option α} {last : Nat} {b : UInt8}
    (known : ∀ n, n < last + 1 → (ofByte? (UInt8.ofNat n)).isSome = true)
    (unknown : ofByte? b = none) :
    last < b.toNat := by
  by_contra low
  have stands := known b.toNat (by omega)
  rw [UInt8.ofNat_toNat, unknown] at stands
  cases stands

namespace CodeTree

variable {settings : Settings} {front : CodeTree}

/-- A function of which only the part in front of its pool is told. -/
def opened
    (particles : NameList) (globals : List String) (operandCount : UInt64) (localCount : UInt32) :
    CodeTree :=
  { (Descriptor.named "" : CodeTree) with particles, globals, operandCount, localCount }

theorem admitted_opened
    {particles : NameList} {globals : List String} {operandCount : UInt64} {localCount : UInt32}
    (made : particles.IsMade)
    (short : particles.Short)
    (few : globals.length < UInt64.size)
    (sizes : ∀ name ∈ globals, name.utf8ByteSize < UInt64.size)
    (within : operandCount ≤ settings.maxOperands) :
    (opened particles globals operandCount localCount).Admitted settings := by
  have empty : 0 < UInt64.size := by decide
  refine ⟨⟨⟨made, ?_⟩, ⟨few, sizes, empty, empty, empty, empty, ?_, empty⟩, ⟨short, ?_⟩, ?_⟩,
    within⟩
  -- The lists behind the pool, and the pool, have no items.
  all_goals
    intro item member
    cases member

/-- An admitted function stays so with entries in its pool that are admitted themselves. -/
theorem admitted_withPool
    {pool : List PoolEntry}
    (h : front.Admitted settings)
    (length : pool.length < UInt64.size)
    (plain : ∀ entry ∈ pool, entry.Plain)
    (inside : ∀ entry ∈ pool,
      entry.Inside fun sub => ∀ node ∈ nodes sub, node.Admitted settings) :
    ∀ node ∈ nodes (front.withPool pool), node.Admitted settings := by
  obtain ⟨⟨made, addressable, writable, _⟩, within⟩ := h
  refine forall_nodes_iff.2 ⟨⟨⟨made.withPool pool, ?_, ?_, plain⟩, within⟩, ?_⟩
  · exact ⟨addressable.globals, addressable.globalNames, length, addressable.name,
      addressable.path, addressable.lines, addressable.linePaths, addressable.code⟩
  · exact Descriptor.writable_withPool_iff.2 writable
  · exact PoolEntry.forall_inside_iff.1 inside

end CodeTree

namespace Cursor

variable {settings : Settings} {bytes : List UInt8} {c inner : Cursor} {depth : Nat}

theorem Nested.in_bytes
    (h : c.Nested settings bytes depth) :
    c.In settings.order bytes 0 := by
  induction h with
  | root =>
      exact in_start _ _
  | inside _ _ _ _ covers ih =>
      exact ih.of_covers covers

/-- The tag of a nested function is the last byte in front of it. -/
theorem In.exists_tag
    {order : ByteOrder} {low count : Nat} {front : CodeTree}
    (h : c.In order bytes low)
    (covers : c.Covers (.approach front count) inner) :
    ∃ i, c.offset ≤ i ∧ bytes[i]? = some Kind.function.tag ∧ inner.offset = i + 1 := by
  obtain ⟨opened, covers_opening, covers⟩ := covers_append_iff.1 covers
  obtain ⟨counted, covers_count, covers⟩ := covers_append_iff.1 covers
  obtain ⟨here, covers_entries, tag⟩ := covers_append_iff.1 covers
  have inside := ((h.of_covers covers_opening).of_covers covers_count).of_covers covers_entries
  refine ⟨here.offset, ?_, inside.getElem?_of_byte tag, ?_⟩
  · rw [covers_entries.offset, covers_count.offset, covers_opening.offset]
    omega
  · rw [tag.offset, Image.length_byte]

/-- Every function around a cursor but the root has a tag in front of it. -/
theorem Nested.tags
    (h : c.Nested settings bytes depth) :
    (0 < depth → 0 < c.offset ∧ bytes[c.offset - 1]? = some Kind.function.tag) ∧
      depth ≤ (bytes.take c.offset).count Kind.function.tag := by
  induction h with
  | root =>
      exact ⟨fun nested => absurd nested (Nat.lt_irrefl 0), Nat.zero_le _⟩
  | @inside depth count c inner front nests _ _ _ covers ih =>
      obtain ⟨i, behind, tag, offset⟩ := nests.in_bytes.exists_tag covers
      rw [offset]
      refine ⟨fun _ => ⟨Nat.succ_pos i, tag⟩, ?_⟩
      have kept : (bytes.take c.offset).count Kind.function.tag ≤
          (bytes.take i).count Kind.function.tag :=
        (List.take_sublist_take_left behind).count_le _
      rw [List.take_add_one, tag, List.count_append]
      exact Nat.succ_le_succ (Nat.le_trans ih.2 kept)

end Cursor

namespace Read

open Step

variable {settings : Settings} {bytes : List UInt8} {low : Nat} {c : Cursor}

theorem reports_nameList : Reports settings bytes low nameList := by
  intro c inside
  refine Ends.bind (reports_shortText.shortTable (by decide) c inside)
    fun names behind read inside_behind => ?_
  have few : names.length ≤ 255 :=
    ((shortTable_eq_ok_iff 1 (fun _ _ _ => shortText_eq_ok_iff)
      fun name _ => Image.le_length_shortText name).1 read).1.1
  rw [NameList.ofList_eq_ok_iff.2 ⟨few, rfl⟩]
  exact inside_behind

theorem reports_capturedVariable : Reports settings bytes low capturedVariable := by
  intro c inside
  rw [capturedVariable, offset_bind]
  refine Ends.bind (reports_byte c inside) fun tag between read inside_between => ?_
  have here := inside.getElem?_of_byte (byte_eq_ok_iff.1 read)
  cases known : VariableKind.ofTag? tag with
  | none =>
      exact ⟨inside.offset_le, here, lt_toNat_of_eq_none (by decide) known⟩
  | some kind =>
      exact reports_byte.bind (fun index => reports_pure _) between inside_between

theorem reports_operand
    (shape : OperandShape) :
    Reports settings bytes low (operand shape) := by
  cases shape with
  | none =>
      exact reports_pure _
  | index =>
      exact reports_word32.bind fun value => reports_pure _
  | captures =>
      exact (reports_capturedVariable.shortTable (by decide)).bind fun list => reports_pure _
  | names =>
      exact reports_nameList.bind fun list => reports_pure _
  | record =>
      exact reports_shortText.bind fun name => reports_nameList.bind fun fields => reports_pure _
  | field =>
      exact reports_shortText.bind fun name => reports_pure _

theorem reports_instruction : Reports settings bytes low instruction := by
  intro c inside
  rw [instruction, offset_bind]
  refine Ends.bind (reports_byte c inside) fun code between read inside_between => ?_
  have here := inside.getElem?_of_byte (byte_eq_ok_iff.1 read)
  cases known : Opcode.ofCode? code with
  | none =>
      exact ⟨here, lt_toNat_of_eq_none (by decide) known⟩
  | some opcode =>
      refine Ends.bind (reports_operand opcode.shape between inside_between)
        fun operand behind done inside_behind => ?_
      have shape : opcode.shape = operand.shape := (operand_eq_ok_iff.1 done).1.1
      rw [Instruction.make_eq_ok_iff.2 ⟨rfl, shape⟩]
      exact inside_behind

theorem reports_lineRecord : Reports settings bytes low lineRecord := by
  refine reports_word32.bind fun start => reports_boolean.bind fun isLine => ?_
  split
  · exact reports_word16.bind fun number => reports_pure _
  · exact reports_text.bind fun name => reports_pure _

theorem reports_operandCount : Reports settings bytes low (operandCount settings.maxOperands) := by
  intro c inside
  rw [operandCount, offset_bind]
  refine Ends.bind (reports_word64 c inside) fun count between read inside_between => ?_
  have here := inside.wordAt count.toNat_lt (word64_eq_ok_iff.1 read)
  split
  · next excess =>
    exact ⟨inside.offset_le, here, excess⟩
  · exact inside_between

section Entries

variable {nested : Read CodeTree} {valid : CodeTree → Prop}

theorem sound_poolEntry
    (inside : c.In settings.order bytes low)
    (enter : ∀ inner : Cursor, c.Covers (.byte Kind.function.tag) inner →
      Sound settings bytes low (nested inner)) :
    Sound settings bytes low (poolEntry nested c) := by
  rw [poolEntry, offset_bind]
  refine Ends.bind (reports_byte c inside) fun tag between read inside_between => ?_
  have covers := byte_eq_ok_iff.1 read
  have here := inside.getElem?_of_byte covers
  cases known : Kind.ofTag? tag with
  | none =>
      exact ⟨inside.offset_le, here, lt_toNat_of_eq_none (by decide) known⟩
  | some kind =>
      obtain rfl := Kind.ofTag?_eq_some_iff.1 known
      cases kind with
      | nothing =>
          exact inside_between
      | integer =>
          exact reports_int64.bind (fun value => reports_pure _) between inside_between
      | real =>
          exact reports_real.bind (fun value => reports_pure _) between inside_between
      | boolean =>
          exact reports_boolean.bind (fun value => reports_pure _) between inside_between
      | character =>
          exact reports_character.bind (fun value => reports_pure _) between inside_between
      | function =>
          exact Ends.bind (enter between covers) fun tree behind _ inside_behind => inside_behind
      | record =>
          exact ⟨inside.offset_le, here⟩

/-- The entries of a pool are read one behind the other. A function among them is entered behind
those that were read. -/
theorem sound_entries
    {count left : Nat} {first : Cursor}
    (before : List PoolEntry)
    (h : Accepts nested valid CodeTree.image)
    (enter : ∀ (before : List PoolEntry) (c inner : Cursor),
      before.length < count → (∀ entry ∈ before, entry.Plain ∧ entry.Inside valid) →
        first.Covers (.concat (.poolEntry CodeTree.image) before) c →
        c.Covers (.byte Kind.function.tag) inner → Sound settings bytes low (nested inner))
    (all : before.length + left = count)
    (whole : ∀ entry ∈ before, entry.Plain ∧ entry.Inside valid)
    (covers : first.Covers (.concat (.poolEntry CodeTree.image) before) c)
    (inside : c.In settings.order bytes low) :
    Sound settings bytes low (repeated (poolEntry nested) left c) := by
  induction left generalizing before c with
  | zero =>
      exact inside
  | succ left ih =>
      have entry_sound : Sound settings bytes low (poolEntry nested c) :=
        sound_poolEntry inside fun inner => enter before c inner (by omega) whole covers
      refine Ends.bind entry_sound fun entry behind read inside_behind => ?_
      obtain ⟨entry_whole, entry_covers⟩ := (poolEntry_eq_ok_iff h).1 read
      have length : (before ++ [entry]).length + left = count := by
        rw [List.length_append, List.length_singleton]
        omega
      have all_whole : ∀ e ∈ before ++ [entry], e.Plain ∧ e.Inside valid :=
        List.forall_mem_append.2 ⟨whole, List.forall_mem_singleton.2 entry_whole⟩
      have all_covers : first.Covers (.concat (.poolEntry CodeTree.image) (before ++ [entry]))
          behind := by
        rw [Image.concat_append]
        exact Cursor.covers_append_iff.2 ⟨c, covers, Cursor.covers_append_iff.2
          ⟨behind, entry_covers, Cursor.covers_raw_nil_iff.2 rfl⟩⟩
      exact Ends.bind (ih _ length all_whole all_covers inside_behind) fun _ _ _ behind => behind

end Entries

section Nested

variable {levels depth : Nat}
variable (enter : ∀ inner : Cursor, inner.In settings.order bytes low →
  inner.Nested settings bytes (depth + 1) →
    Sound settings bytes low (codeTree settings levels inner))
include enter

/-- Behind the opening of a function, the functions of its pool are nested in it. -/
theorem sound_pool
    {front : CodeTree} {between : Cursor}
    (nests : c.Nested settings bytes depth)
    (admitted : front.Admitted settings)
    (opening : c.Covers (.opening front) between)
    (inside : between.In settings.order bytes low) :
    Sound settings bytes low
      (table "constant" 1 (poolEntry (codeTree settings levels)) between) := by
  refine Ends.bind (reports_count (by decide) between inside)
    fun count first read inside_first => ?_
  obtain ⟨⟨below, counted⟩, _⟩ := count_eq_ok_iff.1 read
  refine sound_entries [] (fun _ _ _ => codeTree_eq_ok_iff) ?_ (Nat.zero_add count)
    (fun _ member => by cases member) (Cursor.covers_raw_nil_iff.2 rfl) inside_first
  intro before here inner left whole covers tag
  have approach : c.Covers (.approach (front.withPool before) count) inner :=
    Cursor.covers_append_iff.2 ⟨between, opening, Cursor.covers_append_iff.2
      ⟨first, counted, Cursor.covers_append_iff.2 ⟨here, covers, tag⟩⟩⟩
  have plain : ∀ entry ∈ before, entry.Plain := fun entry member => (whole entry member).1
  have complete : ∀ entry ∈ before,
      entry.Inside fun sub => ∀ node ∈ CodeTree.nodes sub, node.Admitted settings :=
    PoolEntry.forall_inside_iff.2 fun sub member => (whole (.nested sub) member).2.1
  have all_admitted : ∀ node ∈ CodeTree.nodes (front.withPool before), node.Admitted settings :=
    CodeTree.admitted_withPool admitted (Nat.lt_trans left below) plain complete
  exact enter inner ((inside_first.of_covers covers).of_covers tag)
    (.inside nests all_admitted left below approach)

theorem sound_record
    (nests : c.Nested settings bytes depth)
    (inside : c.In settings.order bytes low) :
    Sound settings bytes low (record settings (codeTree settings levels) c) := by
  have texts : Accepts text (fun name => name.utf8ByteSize < UInt64.size) Image.text :=
    fun _ _ _ => text_eq_ok_iff
  refine Ends.bind (reports_nameList c inside) fun particles c₁ read inside₁ => ?_
  obtain ⟨⟨made, short⟩, covers₁⟩ := nameList_eq_ok_iff.1 read
  refine Ends.bind (reports_text.table (by decide) c₁ inside₁) fun globals c₂ read inside₂ => ?_
  obtain ⟨⟨few, sizes⟩, covers₂⟩ :=
    (table_eq_ok_iff 8 texts fun name _ => Image.le_length_text name).1 read
  refine Ends.bind (reports_operandCount c₂ inside₂) fun operandCount c₃ read inside₃ => ?_
  obtain ⟨within, covers₃⟩ := operandCount_eq_ok_iff.1 read
  refine Ends.bind (reports_word32 c₃ inside₃) fun localCount c₄ read inside₄ => ?_
  have covers₄ := word32_eq_ok_iff.1 read
  have admitted : (CodeTree.opened particles globals operandCount localCount).Admitted settings :=
    CodeTree.admitted_opened made short few sizes within
  have opening :
      c.Covers (.opening (CodeTree.opened particles globals operandCount localCount)) c₄ :=
    Cursor.covers_append_iff.2 ⟨c₁, covers₁, Cursor.covers_append_iff.2
      ⟨c₂, covers₂, Cursor.covers_append_iff.2 ⟨c₃, covers₃, covers₄⟩⟩⟩
  refine Ends.bind (sound_pool enter nests admitted opening inside₄) fun pool c₅ _ inside₅ => ?_
  refine Reports.bind reports_text (fun name => ?_) c₅ inside₅
  exact reports_text.bind fun _ =>
    reports_word16.bind fun _ =>
    (reports_lineRecord.table (by decide)).bind fun _ =>
    (reports_instruction.table (by decide)).bind fun _ =>
    reports_pure _

end Nested

/-- A function is refused when more functions lie around it than the settings allow; else what is
nested in it has one more around it. -/
theorem sound_codeTree
    {levels depth : Nat}
    (all : depth + levels = settings.maxDepth.toNat + 1)
    (nests : c.Nested settings bytes depth)
    (inside : c.In settings.order bytes low) :
    Sound settings bytes low (codeTree settings levels c) := by
  induction levels generalizing depth c with
  | zero =>
      obtain rfl : depth = settings.maxDepth.toNat + 1 := all
      obtain ⟨tagged, tags⟩ := nests.tags
      obtain ⟨behind, tag⟩ := tagged (Nat.succ_pos _)
      exact ⟨inside.offset_le, rfl, behind, tag, tags, c, nests, rfl⟩
  | succ levels ih =>
      have enter (inner : Cursor) (inside_inner : inner.In settings.order bytes low)
          (nests_inner : inner.Nested settings bytes (depth + 1)) :
          Sound settings bytes low (codeTree settings levels inner) :=
        ih (by omega) nests_inner inside_inner
      exact sound_record enter nests inside

end Read

namespace Program

variable {settings : Settings} {bytes : List UInt8}

theorem truthful_of_decodeStart_eq_error
    {e : Error}
    (h : decodeStart settings bytes = .error e) :
    e.Truthful settings bytes := by
  obtain ⟨left, refused⟩ := decodeStart_eq_error_iff.1 h
  have sound : Read.Sound settings bytes 0 (Read.codeTree settings (settings.maxDepth.toNat + 1)
      (Cursor.start settings.order bytes)) :=
    Read.sound_codeTree (Nat.zero_add _) .root (Cursor.in_start _ _)
  rw [refused] at sound
  exact sound

/-- Every error of decoding is a report on the bytes, and a truthful one. -/
theorem truthful_of_decode_eq_error
    {e : Error}
    (h : decode settings bytes = .error e) :
    e.isCorruption = true ∧
      ((∃ offset cause, e = .corrupt offset cause ∧ offset ≤ bytes.length ∧
          cause.Truthful settings bytes offset) ∨
        ∃ offset code, e = .invalidOpcode offset code ∧ offset ≤ bytes.length ∧
          bytes[offset]? = some code ∧ 25 < code.toNat) := by
  have truthful : e.Truthful settings bytes := by
    rcases decode_eq_error_iff.1 h with start | ⟨p, behind, start, ⟨strict, some⟩, rfl⟩
    · exact truthful_of_decodeStart_eq_error start
    · have whole := offset_eq_of_decodeStart start
      exact ⟨by omega, strict, whole, List.length_pos_iff.2 some⟩
  cases e with
  | corrupt offset cause =>
      exact ⟨rfl, Or.inl ⟨offset, cause, rfl, truthful⟩⟩
  | invalidOpcode offset code =>
      obtain ⟨here, unknown⟩ := truthful
      have within : offset < bytes.length := (List.getElem?_eq_some_iff.1 here).1
      exact ⟨rfl, Or.inr ⟨offset, code, rfl, Nat.le_of_lt within, here, unknown⟩⟩
  | _ =>
      exact truthful.elim

/-- The start of an image whose pool holds a character without a scalar value. -/
def surrogate : List UInt8 := .replicate 21 0 ++ [1] ++ .replicate 7 0 ++ [4, 0xED, 0xA0, 0x80]

theorem truthful_of_decode_eq_error_surrogate :
    decode .standard surrogate = .error (.corrupt 30 (.invalidCharacter 0xD800)) ∧
      utf8Form 0xD800 <+: surrogate.drop 30 := by
  have refused : decode .standard surrogate = .error (.corrupt 30 (.invalidCharacter 0xD800)) := rfl
  refine ⟨refused, ?_⟩
  rcases (truthful_of_decode_eq_error refused).2 with
    ⟨offset, cause, same, _, truthful⟩ | ⟨offset, code, other, _⟩
  · cases same
    exact truthful.1
  · cases other

end Program
end StackCode
