import Mathlib.Data.List.Forall2
import StackCode.Image.Encode
import StackCode.Proofs.Image.Tree

/-!
# Unfolding programs into trees

Functions of a program refer to each other by position. A function *unfolds* into a tree of code
when every reference in its pool can be replaced by the tree of the function that it leads to, down
to functions without references. Several functions may unfold into the same tree, and a function
that is referred to twice stands in the tree twice. A function that leads back to its own
descriptor, or to one that is not there, unfolds into no tree.

**Results.**
* `Program.Unfolds.unique`: a function unfolds into at most one tree.
* `Program.Unfolds.mono`: trees are kept by programs that keep what their functions run.
* `Program.Unfolds.not_meets`: a function that unfolds does not lead back to its descriptor.
* `Program.inside_induction`: induction along references, with the descriptors around a function.
-/

namespace StackCode

open List (Forall₂)

/-- An entry of a tree stands for a value of a program, given which trees stand for functions. -/
inductive PoolEntry.StandsFor (R : FunctionId → CodeTree → Prop) : Constant → PoolEntry → Prop
  | value {c : Constant} : c.function? = none → StandsFor R c (.value c)
  | nested {id : FunctionId} {tree : CodeTree} :
      R id tree → StandsFor R (.function id) (.nested tree)

/-- The tree of a function: its descriptor, with the trees of the functions in the pool in place. -/
inductive Program.Unfolds (p : Program) : FunctionId → CodeTree → Prop
  | intro {id : FunctionId} {d : Descriptor Constant} {pool : List PoolEntry} :
      p.descriptorOf? id = some d → Forall₂ (PoolEntry.StandsFor (Unfolds p)) d.pool pool →
        Unfolds p id (d.withPool pool)

/-- The functions that a function leads to through the pools of descriptors, itself included. -/
inductive Program.Reaches (p : Program) : FunctionId → FunctionId → Prop
  | refl (id : FunctionId) : Reaches p id id
  | through {id next last : FunctionId} {d : Descriptor Constant} :
      p.descriptorOf? id = some d → .function next ∈ d.pool → Reaches p next last →
        Reaches p id last

namespace PoolEntry

variable {R R' : FunctionId → CodeTree → Prop}
variable {constants : List Constant} {entries entries' : List PoolEntry}

theorem StandsFor.imp
    {c : Constant} {entry : PoolEntry}
    (h : entry.StandsFor R c)
    (imp : ∀ id sub, c = .function id → entry = .nested sub → R id sub → R' id sub) :
    entry.StandsFor R' c := by
  cases h with
  | value plain =>
      exact .value plain
  | nested related =>
      exact .nested (imp _ _ rfl rfl related)

theorem forall₂_standsFor_imp
    (h : Forall₂ (StandsFor R) constants entries)
    (imp : ∀ id sub, .function id ∈ constants → .nested sub ∈ entries → R id sub → R' id sub) :
    Forall₂ (StandsFor R') constants entries := by
  induction h with
  | nil =>
      exact .nil
  | cons first _ ih =>
      refine .cons (first.imp ?_) (ih fun id sub member member' =>
        imp id sub (List.mem_cons_of_mem _ member) (List.mem_cons_of_mem _ member'))
      rintro id sub rfl rfl related
      exact imp id sub List.mem_cons_self List.mem_cons_self related

/-- The entries are determined by the values when the trees are determined by the functions. -/
theorem forall₂_standsFor_unique
    (h : Forall₂ (StandsFor R) constants entries)
    (h' : Forall₂ (StandsFor R) constants entries')
    (unique : ∀ id sub sub', .nested sub ∈ entries → R id sub → R id sub' → sub = sub') :
    entries = entries' := by
  induction h generalizing entries' with
  | nil =>
      cases h'
      rfl
  | cons first _ ih =>
      cases h' with
      | cons first' others' =>
          rw [ih others' fun id sub sub' member =>
            unique id sub sub' (List.mem_cons_of_mem _ member)]
          cases first with
          | value plain =>
              cases first' with
              | value _ =>
                  rfl
              | nested _ =>
                  cases plain
          | nested related =>
              cases first' with
              | value plain =>
                  cases plain
              | nested related' =>
                  rw [unique _ _ _ List.mem_cons_self related related']

/-- A reference in the values has a tree among the entries. -/
theorem exists_nested_of_mem
    {id : FunctionId}
    (h : Forall₂ (StandsFor R) constants entries)
    (member : .function id ∈ constants) :
    ∃ sub, .nested sub ∈ entries ∧ R id sub := by
  induction h with
  | nil =>
      cases member
  | @cons c entry _ _ first _ ih =>
      rcases List.mem_cons.1 member with rfl | later
      · cases first with
        | value plain =>
            cases plain
        | @nested _ sub related =>
            exact ⟨sub, List.mem_cons_self, related⟩
      · obtain ⟨sub, among, related⟩ := ih later
        exact ⟨sub, List.mem_cons_of_mem _ among, related⟩

/-- A tree among the entries has a reference in the values. -/
theorem exists_function_of_mem
    {sub : CodeTree}
    (h : Forall₂ (StandsFor R) constants entries)
    (member : .nested sub ∈ entries) :
    ∃ id, .function id ∈ constants ∧ R id sub := by
  induction h with
  | nil =>
      cases member
  | cons first _ ih =>
      rcases List.mem_cons.1 member with rfl | later
      · cases first with
        | nested related =>
            exact ⟨_, List.mem_cons_self, related⟩
      · obtain ⟨id, among, related⟩ := ih later
        exact ⟨id, List.mem_cons_of_mem _ among, related⟩

/-- No value that a plain entry stands for is a record. -/
theorem not_record_of_forall₂
    (h : Forall₂ (StandsFor R) constants entries)
    (plain : ∀ entry ∈ entries, entry.Plain) :
    ∀ id, .record id ∉ constants := by
  intro id member
  induction h with
  | nil =>
      cases member
  | cons first _ ih =>
      obtain ⟨plain_first, plain_others⟩ := List.forall_mem_cons.1 plain
      rcases List.mem_cons.1 member with rfl | later
      · cases first with
        | value _ => cases plain_first.2
      · exact ih plain_others later

/-- Entries are plain if no record is among the values that they stand for. -/
theorem plain_of_forall₂
    (h : Forall₂ (StandsFor R) constants entries)
    (plain : ∀ id, .record id ∉ constants) :
    ∀ entry ∈ entries, entry.Plain := by
  induction h with
  | nil =>
      exact fun _ member => absurd member List.not_mem_nil
  | @cons c _ _ _ first _ ih =>
      refine List.forall_mem_cons.2
        ⟨?_, ih fun id member => plain id (List.mem_cons_of_mem _ member)⟩
      cases first with
      | nested _ =>
          trivial
      | value no_function =>
          refine ⟨no_function, ?_⟩
          cases c with
          | record id => exact absurd List.mem_cons_self (plain id)
          | _ => rfl

/-- There are entries that stand for some values if there are trees for the functions among them. -/
theorem exists_forall₂_standsFor
    (h : ∀ id, .function id ∈ constants → ∃ tree, R id tree) :
    ∃ entries, Forall₂ (StandsFor R) constants entries := by
  induction constants with
  | nil =>
      exact ⟨[], .nil⟩
  | cons c rest ih =>
      obtain ⟨entries, stands⟩ := ih fun id member => h id (List.mem_cons_of_mem _ member)
      cases c with
      | function id =>
          obtain ⟨tree, related⟩ := h id List.mem_cons_self
          exact ⟨.nested tree :: entries, .cons (.nested related) stands⟩
      | nothing | integer | real | boolean | character | record =>
          exact ⟨.value _ :: entries, .cons (.value rfl) stands⟩

end PoolEntry

namespace Program

variable {p p' : Program} {id : FunctionId} {tree tree' : CodeTree}

theorem descriptorOf?_eq_some_iff
    {d : Descriptor Constant} :
    p.descriptorOf? id = some d ↔
      ∃ f, p.function? id = some f ∧ p.descriptor? f.descriptor = some d :=
  Option.bind_eq_some_iff

/-- A statement on functions inside open descriptors holds if it holds of functions whose descriptor
is not there, of those inside their own descriptor, and of every other function given that it holds
further inside. The descriptors that are not open grow fewer on the way. -/
theorem inside_induction
    {motive : List DescriptorId → FunctionId → Prop}
    (missing : ∀ opened id, p.descriptorOf? id = none → motive opened id)
    (inside : ∀ opened id f d, p.function? id = some f → p.descriptor? f.descriptor = some d →
      f.descriptor ∈ opened → motive opened id)
    (closed : ∀ opened id f d, p.function? id = some f → p.descriptor? f.descriptor = some d →
      f.descriptor ∉ opened → (∀ next, motive (f.descriptor :: opened) next) → motive opened id)
    (opened : List DescriptorId) (id : FunctionId) :
    motive opened id := by
  induction opened, id using writeFunction.induct p with
  | case1 opened id none =>
      exact missing opened id (by rw [descriptorOf?, none]; rfl)
  | case2 opened id f runs none =>
      exact missing opened id (by rw [descriptorOf?, runs]; exact none)
  | case3 opened id f runs d found member =>
      exact inside opened id f d runs found member
  | case4 opened id f runs d found outside _ ih =>
      exact closed opened id f d runs found outside ih

theorem unfolds_iff :
    p.Unfolds id tree ↔
      ∃ d pool, p.descriptorOf? id = some d ∧
        Forall₂ (PoolEntry.StandsFor p.Unfolds) d.pool pool ∧ tree = d.withPool pool := by
  constructor
  · intro h
    cases h with
    | intro found entries => exact ⟨_, _, found, entries, rfl⟩
  · rintro ⟨d, pool, found, entries, rfl⟩
    exact .intro found entries

/-- A function unfolds into at most one tree. -/
theorem Unfolds.unique
    (h : p.Unfolds id tree)
    (h' : p.Unfolds id tree') :
    tree = tree' := by
  induction tree using CodeTree.induction generalizing id tree' with
  | around tree ih =>
      obtain ⟨d, pool, found, entries, rfl⟩ := unfolds_iff.1 h
      obtain ⟨d', pool', found', entries', rfl⟩ := unfolds_iff.1 h'
      obtain rfl : d = d' := Option.some.inj (found.symm.trans found')
      rw [PoolEntry.forall₂_standsFor_unique entries entries']
      intro id sub sub' member first second
      exact ih sub member first second

/-- What a function unfolds into is kept when every function keeps the descriptor that it runs. -/
theorem Unfolds.mono
    (keeps : ∀ id d, p.descriptorOf? id = some d → p'.descriptorOf? id = some d)
    (h : p.Unfolds id tree) :
    p'.Unfolds id tree := by
  induction tree using CodeTree.induction generalizing id with
  | around tree ih =>
      obtain ⟨d, pool, found, entries, rfl⟩ := unfolds_iff.1 h
      refine .intro (keeps id d found) (PoolEntry.forall₂_standsFor_imp entries ?_)
      intro id sub _ member first
      exact ih sub member first

/-- Functions that run one descriptor unfold into one tree. -/
theorem Unfolds.of_descriptorOf?_eq
    {id' : FunctionId}
    (h : p.Unfolds id tree)
    (same : p.descriptorOf? id' = p.descriptorOf? id) :
    p.Unfolds id' tree := by
  obtain ⟨d, pool, found, entries, rfl⟩ := unfolds_iff.1 h
  exact .intro (same.trans found) entries

/-- Every function of a tree is the tree of a function that the root leads to. -/
theorem Unfolds.exists_reaches
    (h : p.Unfolds id tree) :
    ∀ node ∈ CodeTree.nodes tree, ∃ id', p.Reaches id id' ∧ p.Unfolds id' node := by
  induction tree using CodeTree.induction generalizing id with
  | around tree ih =>
      obtain ⟨d, pool, found, entries, rfl⟩ := unfolds_iff.1 h
      rw [CodeTree.forall_nodes_iff]
      refine ⟨⟨id, .refl id, h⟩, fun sub member node inside => ?_⟩
      obtain ⟨next, among, unfolds⟩ := PoolEntry.exists_function_of_mem entries member
      obtain ⟨id', reaches, unfolds'⟩ := ih sub member unfolds node inside
      exact ⟨id', .through found among reaches, unfolds'⟩

/-- Every function that the root leads to has its tree among the functions of the root's tree. -/
theorem Reaches.exists_mem_nodes
    {last : FunctionId}
    (h : p.Reaches id last)
    (unfolds : p.Unfolds id tree) :
    ∃ node ∈ CodeTree.nodes tree, p.Unfolds last node := by
  induction h generalizing tree with
  | refl id =>
      exact ⟨tree, CodeTree.mem_nodes_self tree, unfolds⟩
  | through found among _ ih =>
      obtain ⟨d', pool, found', entries, rfl⟩ := unfolds_iff.1 unfolds
      obtain rfl := Option.some.inj (found.symm.trans found')
      obtain ⟨sub, member, unfolds_sub⟩ := PoolEntry.exists_nested_of_mem entries among
      obtain ⟨node, inside, unfolds_node⟩ := ih unfolds_sub
      exact ⟨node, CodeTree.mem_nodes_of_mem_pool member inside, unfolds_node⟩

/-- A function leads to one that runs the descriptor. -/
def Meets (p : Program) (id : FunctionId) (descriptor : DescriptorId) : Prop :=
  ∃ last f, p.Reaches id last ∧ p.function? last = some f ∧ f.descriptor = descriptor

/-- A function that unfolds does not lead back to the descriptor that it runs. -/
theorem Unfolds.not_meets
    {f : Function} {d : Descriptor Constant} {next : FunctionId}
    (h : p.Unfolds id tree)
    (runs : p.function? id = some f)
    (found : p.descriptor? f.descriptor = some d)
    (among : .function next ∈ d.pool) :
    ¬ p.Meets next f.descriptor := by
  rintro ⟨last, f', reaches, runs', same⟩
  have runs_d : p.descriptorOf? id = some d := by
    rw [descriptorOf?, runs]
    exact found
  have runs_d' : p.descriptorOf? last = some d := by
    rw [descriptorOf?, runs', ← found, ← same]
    rfl
  -- The tree of `last` would be the tree of `id`, and yet less deep.
  have again : p.Unfolds last tree := h.of_descriptorOf?_eq (runs_d'.trans runs_d.symm)
  obtain ⟨d', pool, found', entries, rfl⟩ := unfolds_iff.1 h
  obtain rfl := Option.some.inj (runs_d.symm.trans found')
  obtain ⟨sub, member, unfolds⟩ := PoolEntry.exists_nested_of_mem entries among
  obtain ⟨node, inside, unfolds_node⟩ := reaches.exists_mem_nodes unfolds
  have below : CodeTree.depth node ≤ CodeTree.depth sub :=
    CodeTree.depth_le_of_mem_nodes node inside
  have less : CodeTree.depth sub < CodeTree.depth (d.withPool pool) :=
    CodeTree.depth_lt_of_mem_pool member
  rw [again.unique unfolds_node] at less
  omega

end Program
end StackCode
