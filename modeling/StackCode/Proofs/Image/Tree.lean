import StackCode.Proofs.Image.Records

/-!
# The shape of trees of code

A tree of code is nested through lists of pool entries. Statements about all trees are proved from
one principle: a property holds of every tree if it passes from the trees in a pool to the tree
around them.

The functions of a tree are listed from the inside out, each behind the functions of its pool.
This is the order in which they are registered. The image of a tree nests in the same way.

**Results.**
* `CodeTree.induction`: the principle of induction on trees.
* `CodeTree.forall_nodes_iff`: what holds of all functions of a tree, through its pool.
* `CodeTree.image_eq_record`: the image of a tree is a record around the images in its pool.
-/

namespace StackCode

mutual

/-- The functions of a tree, each behind the functions of its pool. -/
def CodeTree.nodes : Descriptor PoolEntry → List CodeTree
  | .mk name origin particles globals operandCount localCount pool lines code =>
      PoolEntry.nodesAll pool ++
        [.mk name origin particles globals operandCount localCount pool lines code]

/-- The functions of a pool. -/
def PoolEntry.nodesAll : List PoolEntry → List CodeTree
  | [] => []
  | entry :: entries => PoolEntry.nodes entry ++ PoolEntry.nodesAll entries

/-- The functions of a pool entry. -/
def PoolEntry.nodes : PoolEntry → List CodeTree
  | .value _ => []
  | .nested tree => CodeTree.nodes tree

end

mutual

/-- How many levels of functions there are inside the function of a tree. -/
def CodeTree.depth : Descriptor PoolEntry → Nat
  | .mk _ _ _ _ _ _ pool _ _ => PoolEntry.levelsAll pool

/-- The levels of functions in a pool. -/
def PoolEntry.levelsAll : List PoolEntry → Nat
  | [] => 0
  | entry :: entries => max (PoolEntry.levels entry) (PoolEntry.levelsAll entries)

/-- The levels of functions in a pool entry. -/
def PoolEntry.levels : PoolEntry → Nat
  | .value _ => 0
  | .nested tree => CodeTree.depth tree + 1

end

namespace Image

/-- What stands behind the tag of a value that is neither a function nor a record. -/
def payload : Constant → Image
  | .integer value => word 8 value.toUInt64.toNat
  | .real value => word 8 value.bits.toNat
  | .boolean value => boolean value
  | .character value => raw (String.utf8EncodeChar value)
  | _ => raw []

/-- A pool entry: the tag of its kind, then the value or the nested function. -/
def poolEntry (nested : CodeTree → Image) : PoolEntry → Image
  | .value c => byte c.kind.tag ++ payload c
  | .nested tree => byte Kind.function.tag ++ nested tree

theorem le_length_poolEntry
    (nested : CodeTree → Image) (entry : PoolEntry) (order : ByteOrder) :
    1 ≤ (poolEntry nested entry order).length := by
  cases entry <;> simp [poolEntry]

end Image

mutual

/-- The image of a tree. -/
def CodeTree.image : Descriptor PoolEntry → Image
  | .mk name origin particles globals operandCount localCount pool lines code =>
      Image.opening (.mk name origin particles globals operandCount localCount pool lines code) ++
        ((Image.word 8 pool.length ++ PoolEntry.imageAll pool) ++
          Image.closing (.mk name origin particles globals operandCount localCount pool lines code))

/-- The images of the entries of a pool. -/
def PoolEntry.imageAll : List PoolEntry → Image
  | [] => .raw []
  | entry :: entries => PoolEntry.image entry ++ PoolEntry.imageAll entries

/-- The image of a pool entry. -/
def PoolEntry.image : PoolEntry → Image
  | .value c => .byte c.kind.tag ++ Image.payload c
  | .nested tree => .byte Kind.function.tag ++ CodeTree.image tree

end

namespace PoolEntry

/-- The value of the entry can stand in an image as it is: it is no function and no record. -/
def Plain : PoolEntry → Prop
  | value c => c.function? = none ∧ c.record? = none
  | nested _ => True

/-- A condition on trees holds of the tree in the entry, if there is one. -/
def Inside (P : CodeTree → Prop) : PoolEntry → Prop
  | value _ => True
  | nested tree => P tree

theorem forall_inside_iff
    {P : CodeTree → Prop} {entries : List PoolEntry} :
    (∀ entry ∈ entries, entry.Inside P) ↔ ∀ sub, .nested sub ∈ entries → P sub := by
  constructor
  · intro h sub member
    exact h (.nested sub) member
  · intro h entry member
    cases entry with
    | value c =>
        trivial
    | nested sub =>
        exact h sub member

theorem nodesAll_eq_flatMap
    (entries : List PoolEntry) :
    nodesAll entries = entries.flatMap nodes := by
  induction entries with
  | nil =>
      rfl
  | cons entry entries ih =>
      rw [nodesAll, ih, List.flatMap_cons]

theorem levelsAll_le_iff
    {entries : List PoolEntry} {n : Nat} :
    levelsAll entries ≤ n ↔ ∀ entry ∈ entries, levels entry ≤ n := by
  induction entries with
  | nil =>
      simp [levelsAll]
  | cons entry entries ih =>
      rw [levelsAll, Nat.max_le, ih, List.forall_mem_cons]

theorem imageAll_eq_concat
    (entries : List PoolEntry) :
    imageAll entries = Image.concat image entries := by
  induction entries with
  | nil =>
      rfl
  | cons entry entries ih =>
      rw [imageAll, ih, Image.concat]

theorem image_eq_poolEntry :
    image = Image.poolEntry CodeTree.image := by
  funext entry
  cases entry <;> rfl

end PoolEntry

namespace CodeTree

/-- The function of a tree can be written. This says nothing about the trees in its pool. -/
structure Encodable (tree : CodeTree) : Prop where
  writable : tree.Writable
  plain : ∀ entry ∈ tree.pool, entry.Plain

/-- No function of the tree has a reference or a record among the values of its pool. -/
def Plain (tree : CodeTree) : Prop :=
  ∀ node ∈ nodes tree, ∀ entry ∈ node.pool, entry.Plain

/-- A property that passes from the trees of a pool to the tree around them holds of every tree. -/
theorem induction
    {P : CodeTree → Prop}
    (around : ∀ tree : CodeTree, (∀ sub, .nested sub ∈ tree.pool → P sub) → P tree)
    (tree : CodeTree) :
    P tree := by
  -- The motives for an entry and for a pool speak of the trees that stand in them.
  refine @PoolEntry.rec_1
    (fun entry => entry.Inside P) P (fun entries => ∀ entry ∈ entries, entry.Inside P)
    ?_ ?_ ?_ ?_ ?_ tree
  · intro c
    trivial
  · intro sub ih
    exact ih
  · intro name origin particles globals operandCount localCount pool lines code ih
    exact around _ (PoolEntry.forall_inside_iff.1 ih)
  · intro entry h
    cases h
  · intro entry entries first others
    exact List.forall_mem_cons.2 ⟨first, others⟩

theorem nodes_eq
    (tree : CodeTree) :
    nodes tree = tree.pool.flatMap PoolEntry.nodes ++ [tree] := by
  obtain ⟨_, _, _, _, _, _, pool, _, _⟩ := tree
  rw [nodes, PoolEntry.nodesAll_eq_flatMap]

/-- A tree is among its own functions. -/
theorem mem_nodes_self
    (tree : CodeTree) :
    tree ∈ nodes tree := by
  simp [nodes_eq]

/-- Something holds of all functions of a tree when it holds of the tree and of all functions of
the trees in its pool. -/
theorem forall_nodes_iff
    {P : CodeTree → Prop} {tree : CodeTree} :
    (∀ node ∈ nodes tree, P node) ↔
      P tree ∧ ∀ sub, .nested sub ∈ tree.pool → ∀ node ∈ nodes sub, P node := by
  have pool : (∀ node ∈ tree.pool.flatMap PoolEntry.nodes, P node) ↔
      ∀ entry ∈ tree.pool, entry.Inside fun sub => ∀ node ∈ nodes sub, P node := by
    rw [List.forall_mem_flatMap]
    refine forall₂_congr fun entry _ => ?_
    cases entry with
    | value c =>
        simp [PoolEntry.nodes, PoolEntry.Inside]
    | nested sub =>
        rfl
  rw [nodes_eq, List.forall_mem_append, List.forall_mem_singleton, pool, and_comm,
    PoolEntry.forall_inside_iff]

/-- A tree is less deep than a bound when the trees in its pool are less deep than the bound
before. -/
theorem depth_lt_succ_iff
    {tree : CodeTree} {n : Nat} :
    depth tree < n + 1 ↔ ∀ sub, .nested sub ∈ tree.pool → depth sub < n := by
  obtain ⟨_, _, _, _, _, _, pool, _, _⟩ := tree
  rw [depth, Nat.lt_succ_iff, PoolEntry.levelsAll_le_iff, ← PoolEntry.forall_inside_iff]
  refine forall₂_congr fun entry _ => ?_
  cases entry with
  | value c =>
      simp [PoolEntry.levels, PoolEntry.Inside]
  | nested sub =>
      rfl

theorem depth_lt_of_mem_pool
    {tree sub : CodeTree}
    (member : .nested sub ∈ tree.pool) :
    depth sub < depth tree :=
  depth_lt_succ_iff.1 (Nat.lt_succ_self _) sub member

theorem mem_nodes_of_mem_pool
    {tree sub node : CodeTree}
    (member : .nested sub ∈ tree.pool)
    (inside : node ∈ nodes sub) :
    node ∈ nodes tree := by
  rw [nodes_eq, List.mem_append, List.mem_flatMap]
  exact Or.inl ⟨.nested sub, member, inside⟩

/-- No function of a tree is deeper than the tree. -/
theorem depth_le_of_mem_nodes
    {tree : CodeTree} :
    ∀ node ∈ nodes tree, depth node ≤ depth tree := by
  induction tree using CodeTree.induction with
  | around tree ih =>
      rw [forall_nodes_iff]
      refine ⟨Nat.le_refl _, fun sub member node inside => ?_⟩
      have below : depth node ≤ depth sub := ih sub member node inside
      have less : depth sub < depth tree := depth_lt_of_mem_pool member
      omega

/-- The image of a tree is a record around the images of its pool. -/
theorem image_eq_record
    (tree : CodeTree) :
    image tree = .record (.poolEntry image) tree := by
  obtain ⟨_, _, _, _, _, _, pool, _, _⟩ := tree
  rw [image, PoolEntry.imageAll_eq_concat, PoolEntry.image_eq_poolEntry]
  rfl

end CodeTree
end StackCode
