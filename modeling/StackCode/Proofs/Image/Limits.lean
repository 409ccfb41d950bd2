import StackCode.Proofs.Program.PostOrder

/-!
# Limits of the reader

The settings of the reader only refuse programs, they never change one. A program is decoded under
some settings exactly when it is decoded without limits and keeps within them: no function stands
deeper than the settings allow, no descriptor takes more operands, and no byte is left over where
none may be.

The depth of a program is told from the program alone, by the levels at which its functions stand.
For a decoded program the greatest level is the depth of the tree that was read.

**Results.**
* `Program.Flattens.forall_level_le_iff`: levels of functions, and the depth of the tree.
* `Program.decode_eq_ok_iff_unlimited`: what limits refuse.
-/

namespace StackCode

namespace Settings

/-- The same byte order without limits. -/
def unlimited (settings : Settings) : Settings :=
  { settings with
    maxDepth := 18446744073709551615
    maxOperands := 18446744073709551615
    rejectTrailing := false }

/-- The other settings refuse at most what these refuse. -/
structure Within (settings wider : Settings) : Prop where
  order : wider.order = settings.order
  maxDepth : settings.maxDepth ≤ wider.maxDepth
  maxOperands : settings.maxOperands ≤ wider.maxOperands
  rejectTrailing : wider.rejectTrailing = true → settings.rejectTrailing = true

theorem le_largest
    (w : UInt64) :
    w ≤ 18446744073709551615 :=
  UInt64.le_iff_toNat_le.2 (Nat.le_of_lt_succ w.toNat_lt)

theorem within_unlimited
    (settings : Settings) :
    settings.Within settings.unlimited :=
  ⟨rfl, le_largest _, le_largest _, fun strict => by cases strict⟩

end Settings

namespace Program

/-- The levels at which functions stand: the root at level zero, and what stands in a pool one level
further in. -/
inductive StandsAt (p : Program) : Nat → FunctionId → Prop
  | root {id : FunctionId} :
      p.root = some id → StandsAt p 0 id
  | inside {level : Nat} {id next : FunctionId} {d : Descriptor Constant} :
      StandsAt p level id → p.descriptorOf? id = some d → .function next ∈ d.pool →
        StandsAt p (level + 1) next

variable {p : Program} {root : FunctionId} {tree : CodeTree}

theorem StandsAt.level_add_depth_le
    {bound level : Nat} {id : FunctionId} {sub : CodeTree}
    (bounded : ∀ level id, p.StandsAt level id → level ≤ bound)
    (stands : p.StandsAt level id)
    (unfolds : p.Unfolds id sub) :
    level + CodeTree.depth sub ≤ bound := by
  induction sub using CodeTree.induction generalizing level id with
  | around sub ih =>
      have here : level ≤ bound := bounded level id stands
      have below : CodeTree.depth sub < bound - level + 1 := by
        refine CodeTree.depth_lt_succ_iff.2 fun inner member => ?_
        obtain ⟨d, pool, found, entries, rfl⟩ := unfolds_iff.1 unfolds
        obtain ⟨next, among, unfolds_inner⟩ := PoolEntry.exists_function_of_mem entries member
        have further := ih inner member (stands.inside found among) unfolds_inner
        omega
      omega

theorem StandsAt.exists_unfolds
    {level : Nat} {id : FunctionId}
    (rooted : p.root = some root)
    (unfolds : p.Unfolds root tree)
    (stands : p.StandsAt level id) :
    ∃ sub, p.Unfolds id sub ∧ level + CodeTree.depth sub ≤ CodeTree.depth tree := by
  induction stands with
  | root same =>
      obtain rfl := Option.some.inj (rooted.symm.trans same)
      exact ⟨tree, unfolds, Nat.le_of_eq (Nat.zero_add _)⟩
  | @inside level id next d _ found among ih =>
      obtain ⟨sub, unfolds_sub, depth⟩ := ih
      obtain ⟨d', pool, found', entries, rfl⟩ := unfolds_iff.1 unfolds_sub
      obtain rfl := Option.some.inj (found.symm.trans found')
      obtain ⟨inner, member, unfolds_inner⟩ := PoolEntry.exists_nested_of_mem entries among
      have less : CodeTree.depth inner < CodeTree.depth (d.withPool pool) :=
        CodeTree.depth_lt_of_mem_pool member
      exact ⟨inner, unfolds_inner, by omega⟩

theorem Flattens.forall_level_le_iff
    {bound : Nat}
    (h : p.Flattens root tree) :
    (∀ level id, p.StandsAt level id → level ≤ bound) ↔ CodeTree.depth tree ≤ bound := by
  constructor
  · intro bounded
    have whole := StandsAt.level_add_depth_le bounded (.root h.root_eq) h.unfolds_root
    rwa [Nat.zero_add] at whole
  · intro bounded level id stands
    obtain ⟨sub, _, depth⟩ := stands.exists_unfolds h.root_eq h.unfolds_root
    omega

theorem Flattens.forall_operandCount_le_iff
    {limit : UInt64}
    (h : p.Flattens root tree) :
    (∀ d ∈ p.descriptors, d.operandCount ≤ limit) ↔
      ∀ node ∈ CodeTree.nodes tree, node.operandCount ≤ limit := by
  constructor
  · intro bounded node member
    obtain ⟨i, found⟩ := List.mem_iff_getElem?.1 member
    obtain ⟨d, pool, runs, _, rfl⟩ := unfolds_iff.1 (h.unfolds i node found)
    rw [h.paired.descriptorOf?_eq] at runs
    exact bounded d (Array.mem_of_getElem? runs)
  · intro bounded d member
    obtain ⟨i, found⟩ := Array.mem_iff_getElem?.1 member
    obtain ⟨pool, node, _⟩ := h.getElem?_nodes found
    exact bounded _ (List.mem_of_getElem? node)

end Program

namespace CodeTree

variable {settings : Settings} {tree : CodeTree}

theorem readable_iff_unlimited :
    Readable settings tree ↔
      Readable settings.unlimited tree ∧ depth tree ≤ settings.maxDepth.toNat ∧
        ∀ node ∈ nodes tree, node.operandCount ≤ settings.maxOperands := by
  constructor
  · intro h
    exact ⟨h.of_limits_le (Settings.le_largest _) (Settings.le_largest _), h.depth,
      fun node member => (h.admitted node member).2⟩
  · rintro ⟨h, deep, operands⟩
    exact ⟨fun node member => ⟨(h.admitted node member).1, operands node member⟩, deep⟩

end CodeTree

namespace Program

variable {settings wider : Settings} {bytes : List UInt8} {p : Program} {behind : Cursor}

theorem decodeStart_of_within
    (h : decodeStart settings bytes = .ok (p, behind))
    (within : settings.Within wider) :
    decodeStart wider bytes = .ok (p, behind) := by
  obtain ⟨tree, readable, covers, made⟩ := decodeStart_eq_ok_iff.1 h
  refine decodeStart_eq_ok_iff.2
    ⟨tree, readable.of_limits_le within.maxDepth within.maxOperands, ?_, made⟩
  rw [within.order]
  exact covers

theorem decodeStart_eq_ok_iff_unlimited :
    decodeStart settings bytes = .ok (p, behind) ↔
      decodeStart settings.unlimited bytes = .ok (p, behind) ∧
        (∀ level id, p.StandsAt level id → level ≤ settings.maxDepth.toNat) ∧
        ∀ d ∈ p.descriptors, d.operandCount ≤ settings.maxOperands := by
  constructor
  · intro h
    refine ⟨decodeStart_of_within h settings.within_unlimited, ?_⟩
    obtain ⟨tree, readable, _, made⟩ := decodeStart_eq_ok_iff.1 h
    obtain ⟨root, flattens⟩ := flattens_of_ofTree_eq_ok readable.plain made
    rw [flattens.forall_level_le_iff, flattens.forall_operandCount_le_iff]
    exact (CodeTree.readable_iff_unlimited.1 readable).2
  · intro ⟨h, limits⟩
    obtain ⟨tree, readable, covers, made⟩ := decodeStart_eq_ok_iff.1 h
    obtain ⟨root, flattens⟩ := flattens_of_ofTree_eq_ok readable.plain made
    rw [flattens.forall_level_le_iff, flattens.forall_operandCount_le_iff] at limits
    exact decodeStart_eq_ok_iff.2
      ⟨tree, CodeTree.readable_iff_unlimited.2 ⟨readable, limits⟩, covers, made⟩

/-- A program is decoded exactly when it is decoded without limits and keeps within them. Settings
that refuse less decode it as well. -/
theorem decode_eq_ok_iff_unlimited
    (settings : Settings) (bytes : List UInt8) (p : Program) :
    (decode settings bytes = .ok p ↔
      decode settings.unlimited bytes = .ok p ∧
      (∀ level id, p.StandsAt level id → level ≤ settings.maxDepth.toNat) ∧
      (∀ d ∈ p.descriptors, d.operandCount ≤ settings.maxOperands) ∧
      (settings.rejectTrailing = false ∨
        ∃ behind, decodeStart settings.unlimited bytes = .ok (p, behind) ∧ behind.rest = [])) ∧
    ∀ wider, settings.Within wider → decode settings bytes = .ok p →
      decode wider bytes = .ok p := by
  constructor
  · constructor
    · intro decoded
      obtain ⟨behind, start, trailing⟩ := decode_eq_ok_iff.1 decoded
      obtain ⟨start_unlimited, levels, operands⟩ := decodeStart_eq_ok_iff_unlimited.1 start
      refine ⟨?_, levels, operands, ?_⟩
      · exact decode_eq_ok_iff.2 ⟨behind, start_unlimited, fun strict => by cases strict⟩
      · cases strict : settings.rejectTrailing with
        | false =>
            exact Or.inl rfl
        | true =>
            exact Or.inr ⟨behind, start_unlimited, trailing strict⟩
    · intro ⟨decoded, levels, operands, trailing⟩
      obtain ⟨behind, start, _⟩ := decode_eq_ok_iff.1 decoded
      refine decode_eq_ok_iff.2
        ⟨behind, decodeStart_eq_ok_iff_unlimited.2 ⟨start, levels, operands⟩, ?_⟩
      intro strict
      rcases trailing with lenient | ⟨behind', start', none⟩
      · cases lenient.symm.trans strict
      · cases start.symm.trans start'
        exact none
  · intro wider within decoded
    obtain ⟨behind, start, trailing⟩ := decode_eq_ok_iff.1 decoded
    exact decode_eq_ok_iff.2 ⟨behind, decodeStart_of_within start within,
      fun strict => trailing (within.rejectTrailing strict)⟩

/-- Settings that allow for one level of nesting and for no operands. -/
def shallow : Settings := { Settings.standard with maxDepth := 1, maxOperands := 0 }

theorem decode_eq_ok_iff_unlimited_siblings :
    ∃ p, decode shallow siblings = .ok p ∧ decode .standard siblings = .ok p ∧
      p.StandsAt 1 ⟨0⟩ ∧ decode { shallow with maxDepth := 0 } siblings ≠ .ok p := by
  have decoded : ∃ p, decode shallow siblings = .ok p ∧ p.root = some ⟨2⟩ ∧
      ∃ d, p.descriptorOf? ⟨2⟩ = some d ∧ .function ⟨0⟩ ∈ d.pool :=
    ⟨_, rfl, rfl, _, rfl, List.mem_cons_self⟩
  obtain ⟨p, decoded, root, d, found, among⟩ := decoded
  have stands : p.StandsAt 1 ⟨0⟩ := .inside (.root root) found among
  have within : shallow.Within .standard := ⟨rfl, by decide, by decide, fun strict => strict⟩
  refine ⟨p, decoded, (decode_eq_ok_iff_unlimited _ _ _).2 _ within decoded, stands, ?_⟩
  intro refused
  obtain ⟨_, levels, _⟩ := (decode_eq_ok_iff_unlimited _ _ _).1.1 refused
  cases levels 1 ⟨0⟩ stands

end Program
end StackCode
