import StackCode.Proofs.Image.Decoding
import StackCode.Proofs.Names.Map

/-!
# Decoded programs are trees in post-order

The functions of a decoded program are those of a tree, each behind the functions that its pool
refers to. Every function but the last is referred to once, from a function behind it; the last is
the root.

**Results.**
* `Program.isPostOrder_of_decode`: every decoded program is a tree in post-order.
-/

namespace StackCode

open List (Forall₂)

/-- A function is referred to as often as it stands in the pools. -/
theorem Descriptor.count_references
    (descriptors : List (Descriptor Constant)) (id : FunctionId) :
    (descriptors.flatMap Descriptor.references).count id =
      (descriptors.flatMap Descriptor.pool).count (.function id) := by
  have same (c : Constant) : (c.function? == some id) = (c == .function id) := by
    rw [Bool.eq_iff_iff, beq_iff_eq, beq_iff_eq]
    cases c <;> simp [Constant.function?]
  have joined : descriptors.flatMap Descriptor.references =
      (descriptors.flatMap Descriptor.pool).filterMap Constant.function? := by
    rw [List.filterMap_flatMap]
    rfl
  rw [joined, List.count_filterMap, List.count_eq_countP]
  exact List.countP_congr fun c _ => by rw [same]

theorem Descriptor.mem_references_iff
    {d : Descriptor Constant} {id : FunctionId} :
    id ∈ d.references ↔ .function id ∈ d.pool := by
  rw [references, List.mem_filterMap]
  constructor
  · rintro ⟨c, member, found⟩
    cases c <;> cases found
    exact member
  · intro member
    exact ⟨_, member, rfl⟩

/-- A registered function is referred to once, or it is a root. -/
theorem Linked.count_eq_one
    {first : Nat} {added : List (Descriptor Constant)} {roots : List FunctionId} {id : FunctionId}
    (h : Linked first added roots)
    (member : id ∈ FunctionId.block first added.length) :
    (added.flatMap Descriptor.references).count id + roots.count id = 1 := by
  rw [← List.count_append, h.once.count_eq]
  exact List.count_eq_one_of_mem (FunctionId.nodup_block _ _) member

namespace Program

/-- The functions of a program are those of a tree in post-order, as they are made from their
descriptors. -/
structure IsPostOrder (p : Program) : Prop where
  nonempty : 1 ≤ p.descriptorCount
  functionCount : p.functionCount = p.descriptorCount
  function : ∀ i f, p.function? ⟨i⟩ = some f →
    ∃ d, p.descriptor? ⟨i⟩ = some d ∧ f.descriptor = ⟨i⟩ ∧ f.captures = [] ∧
      f.bindings.entries = d.particles.names.eraseDups.map fun name => (name, .nothing)
  root : p.root = some ⟨p.descriptorCount - 1⟩
  no_record : ∀ d ∈ p.descriptors, ∀ id, .record id ∉ d.pool
  once : ∀ k, k < p.descriptorCount - 1 →
    (p.descriptors.toList.flatMap Descriptor.pool).count (.function ⟨k⟩) = 1
  later : ∀ k j d, p.descriptor? ⟨j⟩ = some d → .function ⟨k⟩ ∈ d.pool → k < j
  root_unused : ∀ d ∈ p.descriptors, .function ⟨p.descriptorCount - 1⟩ ∉ d.pool
  ascending : ∀ d ∈ p.descriptors, d.references.Pairwise (·.index < ·.index)

/-- Every decoded program is a tree in post-order. -/
theorem isPostOrder_of_decode
    {settings : Settings} {bytes : List UInt8} {p : Program}
    (h : decode settings bytes = .ok p) :
    p.IsPostOrder := by
  obtain ⟨⟨last⟩, tree, readable, flattens⟩ := exists_flattens_of_decode h
  have count : p.descriptorCount = last + 1 := flattens.root_last
  have size : p.descriptors.toList.length = last + 1 := count
  have counted (k : Nat) (inside : k < last + 1) :
      (p.descriptors.toList.flatMap Descriptor.pool).count (.function ⟨k⟩) +
        [FunctionId.mk last].count ⟨k⟩ = 1 := by
    rw [← Descriptor.count_references]
    refine flattens.linked.count_eq_one (FunctionId.mem_block_iff.2 ⟨Nat.zero_le _, ?_⟩)
    rw [size, Nat.zero_add]
    exact inside
  have end_eq : p.descriptorCount - 1 = last := by omega
  refine ⟨by omega, flattens.paired.functionCount_eq, ?_, ?_, ?_, ?_, ?_, ?_, ?_⟩
  · intro i f runs
    rw [flattens.paired i] at runs
    obtain ⟨d, found, rfl⟩ := Option.map_eq_some_iff.1 runs
    exact ⟨d, found, rfl, rfl, NameMap.entries_ofNames d.particles Constant.nothing⟩
  · rw [flattens.root_eq, end_eq]
  · intro d member
    obtain ⟨i, found⟩ := Array.mem_iff_getElem?.1 member
    obtain ⟨pool, node, entries⟩ := flattens.getElem?_nodes found
    exact PoolEntry.not_record_of_forall₂ entries (readable.plain _ (List.mem_of_getElem? node))
  · intro k inside
    have other : [FunctionId.mk last].count ⟨k⟩ = 0 := by
      rw [List.count_eq_zero, List.mem_singleton, FunctionId.mk.injEq]
      omega
    have once := counted k (by omega)
    rw [other] at once
    exact once
  · intro k j d found member
    rw [descriptor?, ← Array.getElem?_toList] at found
    have earlier := flattens.linked.earlier j d found ⟨k⟩ (Descriptor.mem_references_iff.2 member)
    rw [Nat.zero_add] at earlier
    exact earlier
  · intro d member inside
    have once := counted last (Nat.lt_succ_self _)
    have among : .function ⟨last⟩ ∈ p.descriptors.toList.flatMap Descriptor.pool :=
      List.mem_flatMap.2 ⟨d, Array.mem_toList_iff.2 member, end_eq ▸ inside⟩
    have positive := List.count_pos_iff.2 among
    rw [List.count_singleton_self] at once
    omega
  · intro d member
    exact flattens.linked.ascending d (Array.mem_toList_iff.2 member)

/-- The image of a function that holds two others. -/
def siblings : List UInt8 :=
  .replicate 21 0 ++ [2] ++ .replicate 7 0 ++ [5] ++ .replicate 63 0 ++ [5] ++ .replicate 97 0

theorem isPostOrder_of_decode_siblings :
    ∃ p, decode .standard siblings = .ok p ∧ p.functionCount = 3 ∧ p.IsPostOrder := by
  have decoded : ∃ p, decode .standard siblings = .ok p ∧ p.functionCount = 3 :=
    ⟨_, rfl, rfl⟩
  obtain ⟨p, decoded, count⟩ := decoded
  exact ⟨p, decoded, count, isPostOrder_of_decode decoded⟩

end Program
end StackCode
