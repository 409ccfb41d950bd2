import Mathlib.Data.List.Nodup
import StackCode.Proofs.Program.Unfolding
import StackCode.Proofs.Step

/-!
# Registering trees of code

Registering a tree appends one descriptor for each function of the tree, with the function that is
paired with it. What is appended depends on what the program holds already only through the
positions at which it starts, so a run of registrations is described by three things: the
descriptors that it appends, the functions of the trees that they stand for, and the *roots*, which
are the functions that none of the appended descriptors refers to. Two runs follow one another by
joining these, and registering a descriptor whose references are the roots closes a run into a tree.

**Results.**
* `Linked.append`, `Linked.close`: how references are spread over the appended descriptors.
* `CodeTree.registered`: what registering a tree appends.
-/

namespace StackCode

open List (Forall₂)

/-- The functions that the pool of a descriptor refers to, in order. -/
def Descriptor.references (d : Descriptor Constant) : List FunctionId :=
  d.pool.filterMap Constant.function?

/-- The positions of some number of functions, from a first one on. -/
def FunctionId.block (first count : Nat) : List FunctionId :=
  (List.range' first count).map FunctionId.mk

namespace FunctionId

theorem mem_block_iff
    {id : FunctionId} {first count : Nat} :
    id ∈ block first count ↔ first ≤ id.index ∧ id.index < first + count := by
  constructor
  · intro member
    obtain ⟨index, inside, rfl⟩ := List.mem_map.1 member
    exact List.mem_range'_1.1 inside
  · intro inside
    exact List.mem_map.2 ⟨id.index, List.mem_range'_1.2 inside, rfl⟩

theorem block_append
    (first m n : Nat) :
    block first (m + n) = block first m ++ block (first + m) n := by
  rw [block, ← List.range'_append_1, List.map_append]
  rfl

theorem nodup_block
    (first count : Nat) :
    (block first count).Nodup := by
  refine List.Nodup.map ?_ List.nodup_range'
  intro i j same
  exact FunctionId.mk.inj same

end FunctionId

/-- Descriptors that are registered from a position on refer to each other like trees with the given
roots. Each of their functions is referred to once, or is a root; references lead to functions in
front of the descriptor; and references and roots come in the order of registration. -/
structure Linked (first : Nat) (added : List (Descriptor Constant)) (roots : List FunctionId) :
    Prop where
  once : (added.flatMap Descriptor.references ++ roots).Perm (FunctionId.block first added.length)
  earlier : ∀ i d, added[i]? = some d → ∀ id ∈ d.references, id.index < first + i
  ascending : ∀ d ∈ added, d.references.Pairwise (·.index < ·.index)
  ascending_roots : roots.Pairwise (·.index < ·.index)

namespace Linked

variable {first : Nat} {added added' : List (Descriptor Constant)} {roots roots' : List FunctionId}

theorem nil
    (first : Nat) :
    Linked first [] [] :=
  ⟨List.Perm.nil, by simp, by simp, List.Pairwise.nil⟩

/-- Roots are among the functions that are registered. -/
theorem mem_block_of_mem_roots
    {id : FunctionId}
    (h : Linked first added roots)
    (member : id ∈ roots) :
    first ≤ id.index ∧ id.index < first + added.length :=
  FunctionId.mem_block_iff.1 (h.once.subset (List.mem_append_right _ member))

/-- One run of registrations follows another. -/
theorem append
    (h : Linked first added roots)
    (h' : Linked (first + added.length) added' roots') :
    Linked first (added ++ added') (roots ++ roots') := by
  refine ⟨?_, ?_, ?_, ?_⟩
  · rw [List.length_append, FunctionId.block_append, List.flatMap_append]
    refine List.Perm.trans ?_ (h.once.append h'.once)
    rw [List.append_assoc, List.append_assoc]
    exact List.Perm.append_left _ (List.perm_append_comm_assoc _ _ _)
  · intro i d found id member
    rcases Nat.lt_or_ge i added.length with inside | beyond
    · rw [List.getElem?_append_left inside] at found
      exact h.earlier i d found id member
    · rw [List.getElem?_append_right beyond] at found
      have := h'.earlier _ d found id member
      omega
  · intro d member
    rcases List.mem_append.1 member with left | right
    · exact h.ascending d left
    · exact h'.ascending d right
  · refine List.pairwise_append.2 ⟨h.ascending_roots, h'.ascending_roots, ?_⟩
    intro id member id' member'
    have below := (h.mem_block_of_mem_roots member).2
    have above := (h'.mem_block_of_mem_roots member').1
    exact Nat.lt_of_lt_of_le below above

/-- A descriptor that refers to the roots becomes the only root. -/
theorem close
    {d : Descriptor Constant}
    (h : Linked first added d.references) :
    Linked first (added ++ [d]) [⟨first + added.length⟩] := by
  refine ⟨?_, ?_, ?_, List.pairwise_singleton _ _⟩
  · rw [List.length_append, List.length_singleton, FunctionId.block_append, List.flatMap_append,
      List.flatMap_singleton]
    exact h.once.append_right _
  · intro i e found id member
    rcases Nat.lt_or_ge i added.length with inside | beyond
    · rw [List.getElem?_append_left inside] at found
      exact h.earlier i e found id member
    · rw [List.getElem?_append_right beyond] at found
      obtain rfl := List.mem_singleton.1 (List.mem_of_getElem? found)
      have := (h.mem_block_of_mem_roots member).2
      omega
  · intro e member
    rcases List.mem_append.1 member with left | right
    · exact h.ascending e left
    · rw [List.mem_singleton.1 right]
      exact h.ascending_roots

end Linked

namespace Program

variable {p p' p'' : Program}

/-- The functions are those that are paired with the descriptors, in the same order. -/
def Paired (p : Program) : Prop :=
  ∀ index, p.function? ⟨index⟩ =
    (p.descriptor? ⟨index⟩).map (Function.ofDescriptor ⟨index⟩)

theorem paired_empty :
    empty.Paired :=
  fun _ => rfl

/-- There are as many functions as descriptors. -/
theorem Paired.functionCount_eq
    (h : p.Paired) :
    p.functionCount = p.descriptorCount := by
  have same (index : Nat) : p.functionCount ≤ index ↔ p.descriptorCount ≤ index := by
    have none : p.functions[index]? = none ↔ p.descriptors[index]? = none := by
      rw [show p.functions[index]? = _ from h index, Option.map_eq_none_iff]
      rfl
    rw [Array.getElem?_eq_none_iff, Array.getElem?_eq_none_iff] at none
    exact none
  exact Nat.le_antisymm ((same _).2 (Nat.le_refl _)) ((same _).1 (Nat.le_refl _))

/-- The function at a position runs the descriptor at the position. -/
theorem Paired.descriptorOf?_eq
    (h : p.Paired)
    (index : Nat) :
    p.descriptorOf? ⟨index⟩ = p.descriptor? ⟨index⟩ := by
  rw [descriptorOf?, h index]
  cases found : p.descriptor? ⟨index⟩ with
  | none =>
      rfl
  | some d =>
      exact found

/-- Registering a descriptor keeps the pairing. -/
theorem Paired.register
    (h : p.Paired)
    (d : Descriptor Constant) :
    (p.register d).2.Paired := by
  intro index
  have count : p.functions.size = p.descriptors.size := h.functionCount_eq
  have before : p.functions[index]? = p.descriptors[index]?.map (Function.ofDescriptor ⟨index⟩) :=
    h index
  change (p.functions.push _)[index]? = (p.descriptors.push d)[index]?.map _
  rw [Array.getElem?_push, Array.getElem?_push, count]
  split
  · next here => rw [here]; rfl
  · exact before

/-- A program holds the descriptors of another and then some, each paired with a function. -/
structure Grows (p : Program) (added : List (Descriptor Constant)) (p' : Program) : Prop where
  descriptors : p'.descriptors.toList = p.descriptors.toList ++ added
  root : p'.root = p.root
  paired : p'.Paired

namespace Grows

variable {added added' : List (Descriptor Constant)}

theorem refl
    (paired : p.Paired) :
    p.Grows [] p :=
  ⟨by simp, rfl, paired⟩

theorem trans
    (h : p.Grows added p')
    (h' : p'.Grows added' p'') :
    p.Grows (added ++ added') p'' :=
  ⟨by rw [h'.descriptors, h.descriptors, List.append_assoc], h'.root.trans h.root, h'.paired⟩

theorem register
    (paired : p.Paired)
    (d : Descriptor Constant) :
    p.Grows [d] (p.register d).2 :=
  ⟨by simp [Program.register, addFunction], rfl, paired.register d⟩

theorem descriptorCount_eq
    (h : p.Grows added p') :
    p'.descriptorCount = p.descriptorCount + added.length := by
  rw [descriptorCount, ← Array.length_toList, h.descriptors, List.length_append]
  rfl

/-- What was unfolded is still unfolded in the same way. -/
theorem unfolds
    {id : FunctionId} {tree : CodeTree}
    (h : p.Grows added p')
    (paired : p.Paired)
    (unfolds : p.Unfolds id tree) :
    p'.Unfolds id tree := by
  refine unfolds.mono fun id d found => ?_
  obtain ⟨index⟩ := id
  rw [paired.descriptorOf?_eq] at found
  rw [descriptor?, ← Array.getElem?_toList] at found
  rw [h.paired.descriptorOf?_eq, descriptor?, ← Array.getElem?_toList, h.descriptors]
  obtain ⟨inside, _⟩ := List.getElem?_eq_some_iff.1 found
  rw [List.getElem?_append_left inside]
  exact found

end Grows

/-- A new function unfolds around what the functions of its pool unfold into. -/
theorem unfolds_register
    {d : Descriptor Constant} {pool : List PoolEntry}
    (paired : p.Paired)
    (entries : Forall₂ (PoolEntry.StandsFor p.Unfolds) d.pool pool) :
    (p.register d).2.Unfolds (p.register d).1 (d.withPool pool) := by
  have grows : p.Grows [d] (p.register d).2 := .register paired d
  refine .intro ?_ (PoolEntry.forall₂_standsFor_imp entries fun _ _ _ _ unfolds =>
    grows.unfolds paired unfolds)
  change (p.register d).2.descriptorOf? ⟨p.functionCount⟩ = some d
  rw [grows.paired.descriptorOf?_eq, paired.functionCount_eq]
  simp [descriptor?, Program.register, addFunction, descriptorCount]

/-- A run of registrations has appended descriptors for the functions of some trees, which are
listed as in `CodeTree.nodes`. -/
structure Registered (p : Program) (nodes : List CodeTree) (added : List (Descriptor Constant))
    (roots : List FunctionId) (p' : Program) : Prop where
  grows : p.Grows added p'
  linked : Linked p.descriptorCount added roots
  length : added.length = nodes.length
  unfolds : ∀ i node, nodes[i]? = some node → p'.Unfolds ⟨p.descriptorCount + i⟩ node

namespace Registered

variable {nodes nodes' : List CodeTree} {added added' : List (Descriptor Constant)}
variable {roots roots' : List FunctionId}

theorem refl
    (paired : p.Paired) :
    p.Registered [] [] [] p :=
  ⟨.refl paired, .nil _, rfl, fun _ _ h => by simp at h⟩

theorem trans
    (h : p.Registered nodes added roots p')
    (h' : p'.Registered nodes' added' roots' p'') :
    p.Registered (nodes ++ nodes') (added ++ added') (roots ++ roots') p'' := by
  have count : p'.descriptorCount = p.descriptorCount + added.length := h.grows.descriptorCount_eq
  refine ⟨h.grows.trans h'.grows, h.linked.append (count ▸ h'.linked), ?_, ?_⟩
  · rw [List.length_append, List.length_append, h.length, h'.length]
  · intro i node found
    rcases Nat.lt_or_ge i nodes.length with inside | beyond
    · rw [List.getElem?_append_left inside] at found
      exact h'.grows.unfolds h.grows.paired (h.unfolds i node found)
    · rw [List.getElem?_append_right beyond] at found
      have place : p'.descriptorCount + (i - nodes.length) = p.descriptorCount + i := by
        rw [count, h.length]
        omega
      exact place ▸ h'.unfolds _ node found

/-- Registering a descriptor that refers to the roots makes a tree of the run. -/
theorem close
    {d : Descriptor Constant} {pool : List PoolEntry}
    (h : p.Registered nodes added d.references p')
    (entries : Forall₂ (PoolEntry.StandsFor p'.Unfolds) d.pool pool) :
    p.Registered (nodes ++ [d.withPool pool]) (added ++ [d]) [(p'.register d).1]
      (p'.register d).2 := by
  have count : p'.descriptorCount = p.descriptorCount + added.length := h.grows.descriptorCount_eq
  have id_eq : (p'.register d).1 = ⟨p.descriptorCount + added.length⟩ := by
    rw [← count, ← h.grows.paired.functionCount_eq]
    rfl
  have last : p'.Grows [d] (p'.register d).2 := .register h.grows.paired d
  refine ⟨h.grows.trans last, id_eq ▸ h.linked.close, ?_, ?_⟩
  · rw [List.length_append, List.length_append, h.length]
    rfl
  · intro i node found
    rcases Nat.lt_or_ge i nodes.length with inside | beyond
    · rw [List.getElem?_append_left inside] at found
      exact last.unfolds h.grows.paired (h.unfolds i node found)
    · rw [List.getElem?_append_right beyond] at found
      obtain rfl := List.mem_singleton.1 (List.mem_of_getElem? found)
      obtain ⟨here, _⟩ := List.getElem?_eq_some_iff.1 found
      have place : i = added.length := by
        rw [List.length_singleton] at here
        rw [h.length]
        omega
      rw [place, ← id_eq]
      exact unfolds_register h.grows.paired entries

end Registered
end Program

namespace CodeTree

theorem register_eq
    (tree : CodeTree) (p : Program) :
    register tree p =
      (PoolEntry.registerAll tree.pool p).2.register
        (tree.withPool (PoolEntry.registerAll tree.pool p).1) := by
  cases tree
  rfl

/-- What registering one descriptor keeps, registering the descriptors of a tree keeps. -/
theorem register_invariant
    {P : Program → Prop} {tree : CodeTree} {p : Program}
    (keeps : ∀ p d, P p → P (p.register d).2)
    (before : P p) :
    P (register tree p).2 := by
  induction tree using CodeTree.induction generalizing p with
  | around tree ih =>
      have pool (entries : List PoolEntry) (inside : ∀ entry ∈ entries, entry ∈ tree.pool)
          {p : Program} (before : P p) : P (PoolEntry.registerAll entries p).2 := by
        induction entries generalizing p with
        | nil =>
            exact before
        | cons entry entries others =>
            obtain ⟨member, inside_others⟩ := List.forall_mem_cons.1 inside
            refine others inside_others ?_
            cases entry with
            | value c =>
                exact before
            | nested sub =>
                exact ih sub member before
      rw [register_eq]
      exact keeps _ _ (pool tree.pool (fun _ member => member) before)

/-- The root of a tree is registered last. -/
theorem functionCount_register
    (tree : CodeTree) (p : Program) :
    (register tree p).2.functionCount = (register tree p).1.index + 1 := by
  rw [register_eq]
  exact Array.size_push _

/-- Registering a tree in a program appends its functions, and the reference that it gives leads
to the tree. -/
def Registers (p : Program) (tree : CodeTree) : Prop :=
  (∃ added, p.Registered (nodes tree) added [(register tree p).1] (register tree p).2) ∧
    (register tree p).2.Unfolds (register tree p).1 tree

end CodeTree

namespace PoolEntry

variable {p : Program}

theorem registered
    {entry : PoolEntry}
    (paired : p.Paired)
    (plain : entry.Plain)
    (inside : ∀ sub, entry = .nested sub → CodeTree.Registers p sub) :
    (∃ added, p.Registered (nodes entry) added (register entry p).1.function?.toList
      (register entry p).2) ∧
      entry.StandsFor (register entry p).2.Unfolds (register entry p).1 := by
  cases entry with
  | value c =>
      refine ⟨⟨[], ?_⟩, .value plain.1⟩
      rw [show (register (.value c) p).1.function? = none from plain.1]
      exact .refl paired
  | nested sub =>
      obtain ⟨run, unfolds⟩ := inside sub rfl
      exact ⟨run, .nested unfolds⟩

/-- Registering a pool appends the functions of its trees, and gives the values that they stand
for. -/
theorem registeredAll
    {entries : List PoolEntry}
    (paired : p.Paired)
    (plain : ∀ entry ∈ entries, entry.Plain)
    (inside : ∀ sub, .nested sub ∈ entries → ∀ p : Program, p.Paired → CodeTree.Registers p sub) :
    (∃ added, p.Registered (nodesAll entries) added
      ((registerAll entries p).1.filterMap Constant.function?) (registerAll entries p).2) ∧
      Forall₂ (StandsFor (registerAll entries p).2.Unfolds) (registerAll entries p).1 entries := by
  induction entries generalizing p with
  | nil =>
      exact ⟨⟨[], .refl paired⟩, .nil⟩
  | cons entry entries ih =>
      obtain ⟨plain_first, plain_others⟩ := List.forall_mem_cons.1 plain
      have inside_first : ∀ sub, entry = .nested sub → CodeTree.Registers p sub :=
        fun sub same => inside sub (same ▸ List.mem_cons_self) p paired
      obtain ⟨⟨added, first⟩, stands⟩ := registered paired plain_first inside_first
      obtain ⟨⟨added', others⟩, stand⟩ := ih first.grows.paired plain_others
        fun sub member => inside sub (List.mem_cons_of_mem _ member)
      have roots (c : Constant) (constants : List Constant) :
          (c :: constants).filterMap Constant.function? =
            c.function?.toList ++ constants.filterMap Constant.function? := by
        rw [List.filterMap_cons]
        cases c.function? <;> rfl
      rw [nodesAll, registerAll, roots]
      refine ⟨⟨added ++ added', first.trans others⟩, .cons (stands.imp ?_) stand⟩
      exact fun _ _ _ _ unfolds => others.grows.unfolds first.grows.paired unfolds

end PoolEntry

namespace CodeTree

/-- Registering a tree appends its functions, and gives the reference to the root. -/
theorem registers
    {tree : CodeTree} {p : Program}
    (paired : p.Paired)
    (plain : tree.Plain) :
    Registers p tree := by
  induction tree using CodeTree.induction generalizing p with
  | around tree ih =>
      obtain ⟨plain_tree, plain_pool⟩ := forall_nodes_iff.1 plain
      have inside (sub : CodeTree) (member : .nested sub ∈ tree.pool) (p : Program)
          (paired : p.Paired) : Registers p sub :=
        ih sub member paired (plain_pool sub member)
      obtain ⟨⟨added, run⟩, entries⟩ := PoolEntry.registeredAll paired plain_tree inside
      rw [Registers, register_eq, nodes_eq, ← PoolEntry.nodesAll_eq_flatMap]
      exact ⟨⟨_, run.close (d := tree.withPool _) entries⟩,
        Program.unfolds_register (d := tree.withPool _) run.grows.paired entries⟩

end CodeTree

namespace Program

/-- A program consists of the functions of a tree, the root last. -/
structure Flattens (p : Program) (root : FunctionId) (tree : CodeTree) : Prop where
  paired : p.Paired
  count : p.descriptorCount = (CodeTree.nodes tree).length
  linked : Linked 0 p.descriptors.toList [root]
  unfolds : ∀ i node, (CodeTree.nodes tree)[i]? = some node → p.Unfolds ⟨i⟩ node
  root_eq : p.root = some root
  root_last : p.descriptorCount = root.index + 1
  unfolds_root : p.Unfolds root tree

section

open Step

variable {p p' : Program} {id : FunctionId}

theorem chooseRoot_of_rooted
    {root : FunctionId}
    (rooted : p.root = some root) :
    chooseRoot id p = .error .rootAlreadySet p := by
  rw [chooseRoot, get_bind, rooted]
  rfl

theorem chooseRoot_of_outside
    (unset : p.root = none)
    (outside : p.functionCount ≤ id.index) :
    chooseRoot id p = .error (.unknownFunction id) p := by
  rw [chooseRoot, get_bind, unset, if_pos outside]
  rfl

theorem chooseRoot_of_inside
    (unset : p.root = none)
    (inside : id.index < p.functionCount) :
    chooseRoot id p = .ok () { p with root := some id } := by
  rw [chooseRoot, get_bind, unset, if_neg (Nat.not_le.2 inside)]
  rfl

/-- A choice that is refused leaves the program as it is. -/
theorem eq_of_chooseRoot_eq_error
    {e : Error}
    (refused : chooseRoot id p = .error e p') :
    p' = p := by
  cases root : p.root with
  | some root' =>
      cases (chooseRoot_of_rooted root).symm.trans refused
      rfl
  | none =>
      rcases Nat.lt_or_ge id.index p.functionCount with inside | outside
      · cases (chooseRoot_of_inside root inside).symm.trans refused
      · cases (chooseRoot_of_outside root outside).symm.trans refused
        rfl

theorem setRoot_of_rooted
    {root : FunctionId}
    (rooted : p.root = some root) :
    p.setRoot id = .error .rootAlreadySet := by
  rw [setRoot, chooseRoot_of_rooted rooted]

theorem setRoot_eq_ok_iff :
    p.setRoot id = .ok p' ↔
      p.root = none ∧ id.index < p.functionCount ∧ p' = { p with root := some id } := by
  cases root : p.root with
  | some root' =>
      rw [setRoot_of_rooted root]
      simp
  | none =>
      rcases Nat.lt_or_ge id.index p.functionCount with inside | outside
      · rw [setRoot, chooseRoot_of_inside root inside]
        simp [inside, eq_comm]
      · rw [setRoot, chooseRoot_of_outside root outside]
        simp [outside]

end

/-- Every tree without stray references has a program, which consists of its functions. -/
theorem exists_flattens
    {tree : CodeTree}
    (plain : tree.Plain) :
    ∃ p root, ofTree tree = .ok p ∧ p.Flattens root tree := by
  obtain ⟨⟨added, run⟩, unfolds⟩ := CodeTree.registers paired_empty plain
  have last := CodeTree.functionCount_register tree .empty
  have chosen : ofTree tree = .ok { (CodeTree.register tree .empty).2 with
      root := some (CodeTree.register tree .empty).1 } := by
    change (CodeTree.register tree .empty).2.setRoot (CodeTree.register tree .empty).1 = _
    exact setRoot_eq_ok_iff.2 ⟨run.grows.root, by omega, rfl⟩
  generalize CodeTree.register tree .empty = result at run unfolds last chosen
  obtain ⟨root, p⟩ := result
  have same {id : FunctionId} {t : CodeTree} (h : p.Unfolds id t) :
      { p with root := some root : Program }.Unfolds id t :=
    Unfolds.mono (p := p) (fun _ _ found => found) h
  have first : empty.descriptorCount = 0 := rfl
  have added_eq : p.descriptors.toList = added := run.grows.descriptors
  have count : p.descriptorCount = added.length := by
    rw [run.grows.descriptorCount_eq, first, Nat.zero_add]
  refine ⟨_, root, chosen, run.grows.paired, count.trans run.length, ?_, ?_, rfl, ?_, same unfolds⟩
  · exact added_eq ▸ run.linked
  · intro i node found
    have here := run.unfolds i node found
    rw [first, Nat.zero_add] at here
    exact same here
  · exact run.grows.paired.functionCount_eq.symm.trans last

theorem flattens_of_ofTree_eq_ok
    {p : Program} {tree : CodeTree}
    (plain : tree.Plain)
    (h : ofTree tree = .ok p) :
    ∃ root, p.Flattens root tree := by
  obtain ⟨p', root, chosen, flattens⟩ := exists_flattens plain
  obtain rfl := Except.ok.inj (chosen.symm.trans h)
  exact ⟨root, flattens⟩

/-- Every descriptor of the program is that of a function of the tree, at the same position. -/
theorem Flattens.getElem?_nodes
    {p : Program} {root : FunctionId} {tree : CodeTree} {i : Nat} {d : Descriptor Constant}
    (h : p.Flattens root tree)
    (found : p.descriptor? ⟨i⟩ = some d) :
    ∃ pool, (CodeTree.nodes tree)[i]? = some (d.withPool pool) ∧
      Forall₂ (PoolEntry.StandsFor p.Unfolds) d.pool pool := by
  have inside : i < (CodeTree.nodes tree).length := by
    rw [← h.count]
    exact (Array.getElem?_eq_some_iff.1 found).1
  have node := List.getElem?_eq_getElem inside
  obtain ⟨d', pool, found', entries, same⟩ := unfolds_iff.1 (h.unfolds i _ node)
  rw [h.paired.descriptorOf?_eq] at found'
  obtain rfl := Option.some.inj (found.symm.trans found')
  exact ⟨pool, node.trans (congrArg some same), entries⟩

end Program
end StackCode
