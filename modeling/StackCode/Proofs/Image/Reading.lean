import StackCode.Proofs.Bytes.Reading
import StackCode.Proofs.Image.Tree

/-!
# Reading trees of code

The reader returns a tree when the image of the tree comes next, every function of the tree can
stand in an image, and the tree keeps within the settings. There is nothing else that it returns,
and no such tree that it refuses.

In bytes that are no image as a whole, a function can still be found inside others. Each of these
starts as its record does, and the entries of its pool in front of the next function are complete.

**Results.**
* `Read.record_eq_ok_iff`: the record of a function, given what the reader of nested functions does.
* `Read.codeTree_eq_ok_iff`: a whole tree, by induction on the levels that are left.
-/

namespace StackCode
namespace CodeTree

/-- The function of a tree can stand in an image. This says nothing about the trees in its pool. -/
structure Storable (tree : CodeTree) : Prop where
  made : tree.IsMade
  addressable : tree.Addressable
  encodable : Encodable tree

/-- The function of a tree can stand in an image that is read with the given settings. -/
def Admitted (settings : Settings) (tree : CodeTree) : Prop :=
  Storable tree ∧ tree.operandCount ≤ settings.maxOperands

end CodeTree

namespace Read

open Step

variable {c behind : Cursor} {settings : Settings}
variable {nested : Read CodeTree} {valid : CodeTree → Prop} {image : CodeTree → Image}

theorem poolEntry_eq_ok_iff
    {entry : PoolEntry}
    (h : Accepts nested valid image) :
    poolEntry nested c = .ok entry behind ↔
      (entry.Plain ∧ entry.Inside valid) ∧ c.Covers (.poolEntry image entry) behind := by
  simp only [poolEntry, bind_eq_ok_iff, offset_eq_ok_iff, byte_eq_ok_iff]
  constructor
  · rintro ⟨_, _, ⟨rfl, rfl⟩, tag, between, first, done⟩
    cases known : Kind.ofTag? tag with
    | none =>
        simp [known] at done
    | some kind =>
        rw [Kind.ofTag?_eq_some_iff.1 known] at first
        cases kind <;> simp only [known, bind_eq_ok_iff, int64_eq_ok_iff, real_eq_ok_iff,
          boolean_eq_ok_iff, character_eq_ok_iff, h _ _ _, pure_eq_ok_iff, corrupt_ne_ok] at done
        case nothing =>
          obtain ⟨rfl, rfl⟩ := done
          exact ⟨⟨⟨rfl, rfl⟩, trivial⟩, Cursor.covers_append_iff.2
            ⟨between, first, Cursor.covers_raw_nil_iff.2 rfl⟩⟩
        case function =>
          obtain ⟨tree, last, ⟨valid_tree, second⟩, rfl, rfl⟩ := done
          exact ⟨⟨trivial, valid_tree⟩, Cursor.covers_append_iff.2 ⟨between, first, second⟩⟩
        all_goals
          obtain ⟨value, last, second, rfl, rfl⟩ := done
          exact ⟨⟨⟨rfl, rfl⟩, trivial⟩, Cursor.covers_append_iff.2 ⟨between, first, second⟩⟩
  · rintro ⟨⟨plain, inside⟩, covers⟩
    cases entry with
    | nested tree =>
        obtain ⟨between, first, second⟩ := Cursor.covers_append_iff.1 covers
        refine ⟨c.offset, c, ⟨rfl, rfl⟩, _, between, first, ?_⟩
        simp only [Kind.ofTag?_tag, bind_eq_ok_iff, h _ _ _, pure_eq_ok_iff]
        exact ⟨tree, behind, ⟨inside, second⟩, rfl, rfl⟩
    | value constant =>
        obtain ⟨between, first, second⟩ := Cursor.covers_append_iff.1 covers
        refine ⟨c.offset, c, ⟨rfl, rfl⟩, _, between, first, ?_⟩
        cases constant <;> simp only [Constant.kind, Kind.ofTag?_tag, bind_eq_ok_iff,
          int64_eq_ok_iff, real_eq_ok_iff, boolean_eq_ok_iff, character_eq_ok_iff, pure_eq_ok_iff]
        case nothing =>
          exact ⟨trivial, (Cursor.covers_raw_nil_iff.1 second).symm⟩
        case function id =>
          cases plain.1
        case record id =>
          cases plain.2
        all_goals
          exact ⟨_, behind, second, rfl, rfl⟩

theorem operandCount_eq_ok_iff
    {limit count : UInt64} :
    operandCount limit c = .ok count behind ↔
      count ≤ limit ∧ c.Covers (.word 8 count.toNat) behind := by
  simp only [operandCount, bind_eq_ok_iff, offset_eq_ok_iff, word64_eq_ok_iff]
  constructor
  · rintro ⟨_, _, ⟨rfl, rfl⟩, n, between, covers, done⟩
    split at done
    · obtain ⟨_, _, refused, _⟩ := bind_eq_ok_iff.1 done
      exact absurd refused corrupt_ne_ok
    · next within =>
      obtain ⟨rfl, rfl⟩ := pure_eq_ok_iff.1 done
      exact ⟨UInt64.not_lt.1 within, covers⟩
  · rintro ⟨within, covers⟩
    refine ⟨c.offset, c, ⟨rfl, rfl⟩, count, behind, covers, ?_⟩
    rw [if_neg (UInt64.not_lt.2 within)]
    rfl

/-- A record is read from its image, when its function is admitted and the trees in its pool are
among those that the reader of nested functions accepts. -/
theorem record_eq_ok_iff
    {tree : CodeTree}
    (h : Accepts nested valid image) :
    record settings nested c = .ok tree behind ↔
      (tree.Admitted settings ∧ ∀ entry ∈ tree.pool, entry.Inside valid) ∧
        c.Covers (.record (.poolEntry image) tree) behind := by
  have texts : Accepts text (fun name => name.utf8ByteSize < UInt64.size) Image.text :=
    fun _ _ _ => text_eq_ok_iff
  have entries : Accepts (poolEntry nested) (fun entry => entry.Plain ∧ entry.Inside valid)
      (Image.poolEntry image) :=
    fun _ _ _ => poolEntry_eq_ok_iff h
  have lines : Accepts lineRecord (fun record => Descriptor.AddressableChange record.2)
      Image.lineRecord :=
    fun _ _ _ => lineRecord_eq_ok_iff
  have code : Accepts instruction (fun i => i.IsMade ∧ i.operand.Writable) Image.instruction :=
    fun _ _ _ => instruction_eq_ok_iff
  simp only [record, bind_eq_ok_iff, nameList_eq_ok_iff, operandCount_eq_ok_iff, word32_eq_ok_iff,
    word16_eq_ok_iff, text_eq_ok_iff, pure_eq_ok_iff,
    table_eq_ok_iff 8 texts fun name _ => Image.le_length_text name,
    table_eq_ok_iff 1 entries fun entry _ => Image.le_length_poolEntry image entry,
    table_eq_ok_iff 7 lines fun record _ => Image.le_length_lineRecord record,
    table_eq_ok_iff 1 code fun i _ => Image.le_length_instruction i,
    Image.record, Image.opening, Image.closing, Cursor.covers_append_iff]
  constructor
  · rintro ⟨particles, _, ⟨⟨made, short⟩, c₁⟩, globals, _, ⟨⟨globalCount, globalNames⟩, c₂⟩,
      operands, _, ⟨within, c₃⟩, locals, _, c₄, pool, _, ⟨⟨poolCount, entries⟩, c₅⟩,
      name, _, ⟨nameSize, c₆⟩, path, _, ⟨pathSize, c₇⟩, line, _, c₈,
      lines, _, ⟨⟨lineCount, linePaths⟩, c₉⟩, code, _, ⟨⟨codeCount, code_made⟩, c₁₀⟩, rfl, rfl⟩
    refine ⟨⟨⟨⟨?_, ?_, ?_, ?_⟩, within⟩, fun entry member => (entries entry member).2⟩, ?_⟩
    · exact ⟨made, fun i member => (code_made i member).1⟩
    · exact ⟨globalCount, globalNames, poolCount, nameSize, pathSize, lineCount, linePaths,
        codeCount⟩
    · exact ⟨short, fun i member => (code_made i member).2⟩
    · exact fun entry member => (entries entry member).1
    · exact ⟨_, ⟨_, c₁, _, c₂, _, c₃, c₄⟩, _, c₅, _, c₆, _, c₇, _, c₈, _, c₉, c₁₀⟩
  · rintro ⟨⟨⟨⟨made, addressable, writable, plain⟩, within⟩, inside⟩,
      _, ⟨_, c₁, _, c₂, _, c₃, c₄⟩, _, c₅, _, c₆, _, c₇, _, c₈, _, c₉, c₁₀⟩
    exact ⟨_, _, ⟨⟨made.particles, writable.particles⟩, c₁⟩,
      _, _, ⟨⟨addressable.globals, addressable.globalNames⟩, c₂⟩, _, _, ⟨within, c₃⟩, _, _, c₄,
      _, _, ⟨⟨addressable.pool, fun entry member => ⟨plain entry member, inside entry member⟩⟩, c₅⟩,
      _, _, ⟨addressable.name, c₆⟩, _, _, ⟨addressable.path, c₇⟩, _, _, c₈,
      _, _, ⟨⟨addressable.lines, addressable.linePaths⟩, c₉⟩,
      _, _, ⟨⟨addressable.code, fun i member => ⟨made.code i member, writable.code i member⟩⟩, c₁₀⟩,
      rfl, rfl⟩

/-- A tree is read from its image, when its functions are admitted and it has at most as many
levels as are left. -/
theorem codeTree_eq_ok_iff
    {levels : Nat} {tree : CodeTree} {c behind : Cursor} :
    codeTree settings levels c = .ok tree behind ↔
      ((∀ node ∈ CodeTree.nodes tree, node.Admitted settings) ∧ CodeTree.depth tree < levels) ∧
        c.Covers (CodeTree.image tree) behind := by
  induction levels generalizing tree c behind with
  | zero =>
      simp [codeTree, bind_eq_ok_iff]
  | succ levels ih =>
      have inner : Accepts (codeTree settings levels)
          (fun sub => (∀ node ∈ CodeTree.nodes sub, node.Admitted settings) ∧
            CodeTree.depth sub < levels)
          CodeTree.image :=
        fun _ _ _ => ih
      rw [codeTree, record_eq_ok_iff inner, CodeTree.forall_nodes_iff, CodeTree.depth_lt_succ_iff,
        CodeTree.image_eq_record, PoolEntry.forall_inside_iff, forall₂_and, ← and_assoc]

end Read

/-- What stands between the start of a function and a function in its pool: the part of the record
in front of the pool, the number of entries, the entries in front, and the tag. The function is told
as it would be if its pool ended there. -/
def Image.approach (front : CodeTree) (count : Nat) : Image :=
  opening front ++
    (word 8 count ++ (concat (poolEntry CodeTree.image) front.pool ++ byte Kind.function.tag))

/-- The cursor stands in the bytes where a function starts that has so many functions around it. -/
inductive Cursor.Nested (settings : Settings) (bytes : List UInt8) : Nat → Cursor → Prop
  | root :
      Nested settings bytes 0 (start settings.order bytes)
  | inside {depth count : Nat} {c inner : Cursor} {front : CodeTree} :
      Nested settings bytes depth c →
        (∀ node ∈ CodeTree.nodes front, node.Admitted settings) →
        front.pool.length < count → count < UInt64.size →
        c.Covers (.approach front count) inner →
        Nested settings bytes (depth + 1) inner

end StackCode
