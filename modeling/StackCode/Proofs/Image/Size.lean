import Mathlib.Algebra.Order.BigOperators.Group.List
import Mathlib.Algebra.Order.Ring.Nat
import StackCode.Proofs.Image.Decoding

/-!
# How much can be read from how many bytes

The record of a function takes 63 bytes, whatever it describes: its counts, its lengths and its
numbers have fixed widths. Every name, global, constant, line record and instruction takes at least
one byte more, and so does the tag in front of a function that stands in a pool.

What holds of one record, with the images in its pool left open, is added up over the tree. A
weight of the functions of a tree stays within a measure of the tree when every function takes up
its own weight besides the measures of the trees in its pool.

**Results.**
* `CodeTree.sum_nodes_le`: adding up over a tree.
* `CodeTree.nodes_le_length_image`, `CodeTree.items_le_length_image`: the number of functions of a
  tree, and the number of things that they list, against the length of its image.
* `Program.counts_le_of_decode`: the same for a decoded program and the bytes it was read from.
-/

namespace StackCode

/-- How many things a descriptor lists: names of particles, globals, constants, line records and
instructions. -/
def Descriptor.itemCount {κ : Type} (d : Descriptor κ) : Nat :=
  d.particles.names.length + d.globals.length + d.pool.length + d.lines.records.length +
    d.code.length

namespace Image

variable {α : Type} {item : α → Image} {least : Nat} {order : ByteOrder} {items : List α}

/-- Weights that the items reach one by one are reached by the items together. -/
theorem sum_le_length_concat
    {weight : α → Nat}
    (h : ∀ a, weight a ≤ (item a order).length) :
    (items.map weight).sum ≤ (concat item items order).length := by
  induction items with
  | nil =>
      simp
  | cons first others ih =>
      have head := h first
      rw [List.map_cons, List.sum_cons, concat, append_apply, List.length_append]
      omega

theorem length_table :
    (table item items order).length = 8 + (concat item items order).length := by
  rw [table, append_apply, List.length_append, length_word]

theorem le_length_table
    (h : ∀ a, least ≤ (item a order).length) :
    8 + items.length * least ≤ (table item items order).length := by
  rw [length_table]
  exact Nat.add_le_add_left (mul_le_length_concat fun a _ => h a) 8

theorem le_length_shortTable
    (h : ∀ a, least ≤ (item a order).length) :
    1 + items.length * least ≤ (shortTable item items order).length := by
  rw [shortTable, append_apply, List.length_append, length_word]
  exact Nat.add_le_add_left (mul_le_length_concat fun a _ => h a) 1

/-- A record takes 63 bytes, one for each thing that the function lists outside the pool, and the
images in the pool. -/
theorem le_length_record
    {κ : Type} (entry : κ → Image) (d : Descriptor κ) (order : ByteOrder) :
    63 + d.itemCount + (concat entry d.pool order).length ≤
      (record entry d order).length + d.pool.length := by
  have particles : 1 + d.particles.names.length * 1 ≤ (nameList d.particles order).length :=
    le_length_shortTable fun name => le_length_shortText name order
  have globals : 8 + d.globals.length * 8 ≤ (table text d.globals order).length :=
    le_length_table fun name => le_length_text name order
  have pool : (table entry d.pool order).length = 8 + (concat entry d.pool order).length :=
    length_table
  have name := le_length_text d.name order
  have path := le_length_text d.origin.path order
  have lines : 8 + d.lines.records.length * 7 ≤ (table lineRecord d.lines.records order).length :=
    le_length_table fun record => le_length_lineRecord record order
  have code : 8 + d.code.length * 1 ≤ (table instruction d.code order).length :=
    le_length_table fun i => le_length_instruction i order
  simp only [record, opening, closing, append_apply, List.length_append, length_word,
    Descriptor.itemCount]
  omega

end Image

/-- A weight of trees as a weight of pool entries: a value weighs nothing. -/
def PoolEntry.weigh (weight : CodeTree → Nat) : PoolEntry → Nat
  | value _ => 0
  | nested tree => weight tree

namespace CodeTree

/-- The weights of the functions of a tree are the weight of the root and those of the functions in
its pool. -/
theorem sum_nodes
    (weight : CodeTree → Nat) (tree : CodeTree) :
    ((nodes tree).map weight).sum =
      weight tree +
        (tree.pool.map (PoolEntry.weigh fun sub => ((nodes sub).map weight).sum)).sum := by
  have entries (pool : List PoolEntry) :
      ((pool.flatMap PoolEntry.nodes).map weight).sum =
        (pool.map (PoolEntry.weigh fun sub => ((nodes sub).map weight).sum)).sum := by
    induction pool with
    | nil =>
        rfl
    | cons entry pool ih =>
        rw [List.flatMap_cons, List.map_append, List.sum_append, List.map_cons, List.sum_cons, ih]
        cases entry <;> rfl
  rw [nodes_eq, List.map_append, List.sum_append, entries, List.map_singleton, List.sum_singleton,
    Nat.add_comm]

/-- If a measure of trees has room for the weight of a function besides the measures of the trees in
its pool, then it has room for the weights of all functions of a tree. -/
theorem sum_nodes_le
    {weight measure : CodeTree → Nat}
    (room : ∀ tree : CodeTree,
      weight tree + (tree.pool.map (PoolEntry.weigh measure)).sum ≤ measure tree)
    (tree : CodeTree) :
    ((nodes tree).map weight).sum ≤ measure tree := by
  induction tree using CodeTree.induction with
  | around tree ih =>
      have inside : (tree.pool.map (PoolEntry.weigh fun sub => ((nodes sub).map weight).sum)).sum ≤
          (tree.pool.map (PoolEntry.weigh measure)).sum := by
        refine List.sum_le_sum fun entry member => ?_
        cases entry with
        | value c =>
            exact Nat.le_refl 0
        | nested sub =>
            exact ih sub member
      calc ((nodes tree).map weight).sum
        _ = weight tree + _ := sum_nodes weight tree
        _ ≤ weight tree + (tree.pool.map (PoolEntry.weigh measure)).sum :=
            Nat.add_le_add_left inside _
        _ ≤ measure tree := room tree

variable (tree : CodeTree) (order : ByteOrder)

/-- A tree of `n` functions has an image of at least `64 * n - 1` bytes: only the root has no tag in
front of its record. -/
theorem nodes_le_length_image :
    64 * (nodes tree).length ≤ (image tree order).length + 1 := by
  have room (tree : CodeTree) :
      64 + (tree.pool.map (PoolEntry.weigh fun sub => (image sub order).length + 1)).sum ≤
        (image tree order).length + 1 := by
    have pool : (tree.pool.map (PoolEntry.weigh fun sub => (image sub order).length + 1)).sum ≤
        (Image.concat (Image.poolEntry image) tree.pool order).length := by
      refine Image.sum_le_length_concat fun entry => ?_
      cases entry <;> simp [PoolEntry.weigh, Image.poolEntry, Nat.add_comm]
    have record := Image.le_length_record (Image.poolEntry image) tree order
    have listed : tree.pool.length ≤ tree.itemCount := by
      rw [Descriptor.itemCount]
      omega
    rw [image_eq_record tree]
    omega
  have sum := sum_nodes_le room tree
  rw [List.map_const', List.sum_replicate_nat, Nat.mul_comm] at sum
  exact sum

/-- The functions of a tree together list no more things than the image has bytes, even without the
63 bytes of each record. -/
theorem items_le_length_image :
    ((nodes tree).map fun node => 63 + node.itemCount).sum ≤ (image tree order).length := by
  have room (tree : CodeTree) :
      63 + tree.itemCount +
          (tree.pool.map (PoolEntry.weigh fun sub => (image sub order).length)).sum ≤
        (image tree order).length := by
    have pool : (tree.pool.map
          fun entry => 1 + entry.weigh fun sub => (image sub order).length).sum ≤
        (Image.concat (Image.poolEntry image) tree.pool order).length := by
      refine Image.sum_le_length_concat fun entry => ?_
      cases entry <;> simp [PoolEntry.weigh, Image.poolEntry]
    have record := Image.le_length_record (Image.poolEntry image) tree order
    rw [List.sum_map_add, List.map_const', List.sum_replicate_nat, Nat.mul_one] at pool
    rw [image_eq_record tree]
    omega
  exact sum_nodes_le room tree

end CodeTree

namespace Program

variable {settings : Settings} {bytes : List UInt8} {p : Program}

/-- The descriptors of a program list the same things as the functions of its tree. -/
theorem Flattens.map_itemCount
    {root : FunctionId} {tree : CodeTree}
    (h : p.Flattens root tree) :
    p.descriptors.toList.map Descriptor.itemCount =
      (CodeTree.nodes tree).map Descriptor.itemCount := by
  refine List.ext_getElem? fun i => ?_
  rw [List.getElem?_map, List.getElem?_map, Array.getElem?_toList]
  cases found : p.descriptors[i]? with
  | none =>
      have outside : (CodeTree.nodes tree).length ≤ i :=
        h.count ▸ Array.getElem?_eq_none_iff.1 found
      rw [List.getElem?_eq_none outside]
      rfl
  | some d =>
      obtain ⟨pool, node, entries⟩ := h.getElem?_nodes found
      rw [node]
      simp [Descriptor.itemCount, Descriptor.withPool, entries.length_eq]

/-- A program of `n` descriptors was read from at least `64 * n - 1` bytes, and it lists no more
things than there were bytes. -/
theorem counts_le_of_decode
    (h : decode settings bytes = .ok p) :
    64 * p.descriptorCount ≤ bytes.length + 1 ∧
      63 * p.descriptorCount + (p.descriptors.toList.map Descriptor.itemCount).sum ≤
        bytes.length := by
  obtain ⟨behind, start, _⟩ := decode_eq_ok_iff.1 h
  obtain ⟨tree, readable, covers, made⟩ := decodeStart_eq_ok_iff.1 start
  obtain ⟨root, flattens⟩ := flattens_of_ofTree_eq_ok readable.plain made
  have length : (CodeTree.image tree settings.order).length ≤ bytes.length :=
    covers.length_le_remaining
  have nodes := CodeTree.nodes_le_length_image tree settings.order
  have items := CodeTree.items_le_length_image tree settings.order
  rw [List.sum_map_add, List.map_const', List.sum_replicate_nat, ← flattens.map_itemCount,
    ← flattens.count, Nat.mul_comm] at items
  rw [← flattens.count] at nodes
  omega

end Program
end StackCode
