import StackCode.Proofs.Program.Unfolding

/-!
# What keeps programs from being written

An image has no place for some programs. Names and lists that stand behind one byte can be too long
for it, records have no image, references can lead nowhere, and a function that leads back to its
own descriptor would have to contain itself. Here all faults of a program are listed in the order of
its image: the root's particles, then what is in its pool from front to back, with the faults of a
nested function in the place of the function, then the operands of its code. Globals, line maps,
names and paths have no faults, as their lengths take eight bytes.

A function may stand in the image many times; it is at fault only where it stands inside itself.
Therefore the list depends on the descriptors around a place, and a descriptor that is closed again
is no longer among them.

Without the order, there is nothing at fault exactly when a condition holds of everything that the
root leads to, which mentions neither places nor open descriptors.

**Results.**
* `Program.exists_unfolds`: a function unfolds if all that it leads to is there and acyclic.
* `Program.writableFrom_iff`: the condition, as existence of a tree that can be written.
-/

namespace StackCode

/-- The fault of a text that does not fit behind one byte. -/
def shortFaults (value : String) : List Error :=
  if 255 < value.utf8ByteSize then [.textTooLong value.utf8ByteSize 255] else []

/-- The faults of the names of a list. -/
def NameList.faults (list : NameList) : List Error := list.names.flatMap shortFaults

/-- The faults of an operand. -/
def Operand.faults : Operand → List Error
  | .captures list =>
    if 255 < list.length then [.listTooLong "free variable" list.length] else []
  | .names list => list.faults
  | .record name fields => shortFaults name ++ fields.faults
  | .field name => shortFaults name
  | .none | .index _ => []

/-- The faults of a value in a pool, given those of functions. -/
def Constant.faults (nested : FunctionId → List Error) : Constant → List Error
  | .function id => nested id
  | .record _ => [.unstorableConstant .record]
  | _ => []

/-- The faults of a descriptor, given those of functions. -/
def Descriptor.faults (nested : FunctionId → List Error) (d : Descriptor Constant) : List Error :=
  d.particles.faults ++
    (d.pool.flatMap (Constant.faults nested) ++ d.code.flatMap fun i => i.operand.faults)

namespace Program

open List (Forall₂)

/-- The faults of a function that stands inside open descriptors. -/
def faultsInside (p : Program) (opened : List DescriptorId) (id : FunctionId) : List Error :=
  match p.function? id with
  | none => [.unknownFunction id]
  | some f =>
    match found : p.descriptor? f.descriptor with
    | none => [.unknownFunction id]
    | some d =>
      if inside : f.descriptor ∈ opened then [.recursiveFunction id]
      else
        have := closedCount_cons_lt (Array.getElem?_eq_some_iff.1 found).1 inside
        d.faults fun nested => faultsInside p (f.descriptor :: opened) nested
termination_by p.closedCount opened

/-- All faults of a program, in the order of its image. -/
def faults (p : Program) : List Error :=
  match p.root with
  | none => [.noRoot]
  | some root => p.faultsInside [] root

/-- Everything that the root leads to can stand in an image. -/
structure WritableFrom (p : Program) (root : FunctionId) : Prop where
  resolves : ∀ id, p.Reaches root id →
    ∃ f d, p.function? id = some f ∧ p.descriptor? f.descriptor = some d
  acyclic : ∀ id f d next, p.Reaches root id →
    p.function? id = some f → p.descriptor? f.descriptor = some d →
      .function next ∈ d.pool → ¬ p.Meets next f.descriptor
  storable : ∀ id d r, p.Reaches root id → p.descriptorOf? id = some d → .record r ∉ d.pool
  short : ∀ id d, p.Reaches root id → p.descriptorOf? id = some d → d.Writable

variable {p : Program} {id root : FunctionId} {opened : List DescriptorId}

/-- A function whose descriptor is not there is at fault. -/
theorem faultsInside_of_missing
    (missing : p.descriptorOf? id = none) :
    p.faultsInside opened id = [.unknownFunction id] := by
  rw [faultsInside]
  split
  · rfl
  · next f runs =>
    rw [descriptorOf?, runs] at missing
    split
    · rfl
    · next d found => cases found.symm.trans missing

section Running

variable {f : Function} {d : Descriptor Constant}
variable (runs : p.function? id = some f) (found : p.descriptor? f.descriptor = some d)
include runs found

/-- A function is at fault inside its own descriptor. -/
theorem faultsInside_of_opened
    (inside : f.descriptor ∈ opened) :
    p.faultsInside opened id = [.recursiveFunction id] := by
  rw [faultsInside]
  split
  · next none => cases runs.symm.trans none
  · next f' runs' =>
    obtain rfl := Option.some.inj (runs.symm.trans runs')
    split
    · next none => cases found.symm.trans none
    · exact dif_pos inside

/-- Elsewhere, the faults of a function are those of its descriptor. -/
theorem faultsInside_of_closed
    (closed : f.descriptor ∉ opened) :
    p.faultsInside opened id = d.faults (p.faultsInside (f.descriptor :: opened)) := by
  rw [faultsInside]
  split
  · next none => cases runs.symm.trans none
  · next f' runs' =>
    obtain rfl := Option.some.inj (runs.symm.trans runs')
    split
    · next none => cases found.symm.trans none
    · next d' found' =>
      obtain rfl := Option.some.inj (found.symm.trans found')
      exact dif_neg closed

end Running

/-- A function unfolds into a tree if all that it leads to is there and acyclic, and if it does not
lead to an open descriptor. -/
theorem exists_unfolds
    (resolves : ∀ last, p.Reaches id last →
      ∃ f d, p.function? last = some f ∧ p.descriptor? f.descriptor = some d)
    (acyclic : ∀ last f d next, p.Reaches id last →
      p.function? last = some f → p.descriptor? f.descriptor = some d →
        .function next ∈ d.pool → ¬ p.Meets next f.descriptor)
    (closed : ∀ descriptor ∈ opened, ¬ p.Meets id descriptor) :
    ∃ tree, p.Unfolds id tree := by
  induction opened, id using inside_induction (p := p) with
  | missing opened id none =>
      obtain ⟨f, d, runs, found⟩ := resolves id (.refl id)
      cases none.symm.trans (descriptorOf?_eq_some_iff.2 ⟨f, runs, found⟩)
  | inside opened id f d runs found member =>
      exact absurd ⟨id, f, .refl id, runs, rfl⟩ (closed f.descriptor member)
  | closed opened id f d runs found outside ih =>
      have runs_d : p.descriptorOf? id = some d := descriptorOf?_eq_some_iff.2 ⟨f, runs, found⟩
      have below : ∀ next, .function next ∈ d.pool → ∃ tree, p.Unfolds next tree := by
        intro next among
        have further (last : FunctionId) (reaches : p.Reaches next last) : p.Reaches id last :=
          .through runs_d among reaches
        refine ih next (fun last reaches => resolves last (further last reaches))
          (fun last f d next reaches => acyclic last f d next (further last reaches)) ?_
        refine List.forall_mem_cons.2 ⟨acyclic id f d next (.refl id) runs found among, ?_⟩
        rintro descriptor member ⟨last, g, reaches, runs', same⟩
        exact closed descriptor member ⟨last, g, further last reaches, runs', same⟩
      obtain ⟨pool, entries⟩ := PoolEntry.exists_forall₂_standsFor below
      exact ⟨_, .intro runs_d entries⟩

/-- What a function leads to can stand in an image exactly when the function unfolds into a tree
that can. -/
theorem writableFrom_iff :
    p.WritableFrom root ↔
      ∃ tree, p.Unfolds root tree ∧ ∀ node ∈ CodeTree.nodes tree, node.Encodable := by
  constructor
  · intro h
    obtain ⟨tree, unfolds⟩ :=
      exists_unfolds h.resolves h.acyclic fun _ member => absurd member List.not_mem_nil
    refine ⟨tree, unfolds, fun node member => ?_⟩
    obtain ⟨id, reaches, unfolds_id⟩ := unfolds.exists_reaches node member
    obtain ⟨d, pool, found, entries, rfl⟩ := unfolds_iff.1 unfolds_id
    refine ⟨Descriptor.writable_withPool_iff.2 (h.short id d reaches found), ?_⟩
    exact PoolEntry.plain_of_forall₂ entries fun r => h.storable id d r reaches found
  · rintro ⟨tree, unfolds, encodable⟩
    -- Every function that the root leads to has its tree among the nodes.
    have node {id : FunctionId} (reaches : p.Reaches root id) :
        ∃ d pool, p.descriptorOf? id = some d ∧
          Forall₂ (PoolEntry.StandsFor p.Unfolds) d.pool pool ∧
            p.Unfolds id (d.withPool pool) ∧ CodeTree.Encodable (d.withPool pool) := by
      obtain ⟨_, member, unfolds_id⟩ := reaches.exists_mem_nodes unfolds
      obtain ⟨d, pool, found, entries, rfl⟩ := unfolds_iff.1 unfolds_id
      exact ⟨d, pool, found, entries, unfolds_id, encodable _ member⟩
    refine ⟨?_, ?_, ?_, ?_⟩
    · intro id reaches
      obtain ⟨d, _, found, _⟩ := node reaches
      obtain ⟨f, runs, found'⟩ := descriptorOf?_eq_some_iff.1 found
      exact ⟨f, d, runs, found'⟩
    · intro id f d next reaches runs found among
      obtain ⟨_, _, _, _, unfolds_id, _⟩ := node reaches
      exact unfolds_id.not_meets runs found among
    · intro id d r reaches found among
      obtain ⟨d', pool, found', entries, _, encodable_id⟩ := node reaches
      obtain rfl := Option.some.inj (found.symm.trans found')
      exact PoolEntry.not_record_of_forall₂ entries encodable_id.plain r among
    · intro id d reaches found
      obtain ⟨d', pool, found', _, _, encodable_id⟩ := node reaches
      obtain rfl := Option.some.inj (found.symm.trans found')
      exact Descriptor.writable_withPool_iff.1 encodable_id.writable

end Program
end StackCode
