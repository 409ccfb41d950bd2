import StackCode.Proofs.Bytes.Writing
import StackCode.Proofs.Program.Unfolding

/-!
# Writing programs

The writer follows the references of a program, so what it stores is the tree that a function
unfolds into, if that tree can be written. It refuses to open a descriptor inside itself. For a
function that unfolds this never happens: the writer is only ever inside descriptors that the
function does not lead to.

**Results.**
* `Write.record_eq_ok_iff`: the record of a function, given what the writer of functions does.
* `Program.writeFunction_eq_ok_iff`: a function inside open descriptors, by induction on the number
  of descriptors that are not open.
* `Program.encode_eq_ok_iff`: the image of a program is the image of the tree of its root.
-/

namespace StackCode

open List (Forall₂)

namespace PoolEntry

/-- The entries stand for values, and satisfy a condition besides. -/
theorem forall₂_standsFor_and_iff
    {R : FunctionId → CodeTree → Prop} {P : PoolEntry → Prop}
    {constants : List Constant} {entries : List PoolEntry} :
    Forall₂ (fun c entry => StandsFor R c entry ∧ P entry) constants entries ↔
      Forall₂ (StandsFor R) constants entries ∧ ∀ entry ∈ entries, P entry := by
  induction entries generalizing constants with
  | nil =>
      simp
  | cons entry entries ih =>
      simp only [List.forall₂_cons_right_iff, List.forall_mem_cons, ih]
      constructor
      · rintro ⟨c, others, ⟨first, holds⟩, ⟨rest, all⟩, rfl⟩
        exact ⟨⟨c, others, first, rest, rfl⟩, holds, all⟩
      · rintro ⟨⟨c, others, first, rest, rfl⟩, holds, all⟩
        exact ⟨c, others, ⟨first, holds⟩, ⟨rest, all⟩, rfl⟩

end PoolEntry

namespace Write

open Step

variable {s s' : Sink} {u : Unit}
variable {nested : FunctionId → Write Unit} {R : FunctionId → CodeTree → Prop}
variable {image : CodeTree → Image}

theorem constant_eq_ok_iff
    {c : Constant}
    (h : Stores nested R image) :
    constant nested c s = .ok u s' ↔
      ∃ entry : PoolEntry, (entry.StandsFor R c ∧ entry.Plain) ∧
        s.Takes (.poolEntry image entry) s' := by
  simp only [constant, bind_eq_ok_iff, byte_eq_ok_iff]
  constructor
  · rintro ⟨_, between, first, second⟩
    cases c
    case function id =>
      obtain ⟨sub, related, taken⟩ := (h _ _ _ _).1 second
      exact ⟨.nested sub, ⟨.nested related, trivial⟩,
        Sink.takes_append_iff.2 ⟨between, first, taken⟩⟩
    case record id =>
      exact absurd second throw_ne_ok
    case nothing =>
      obtain ⟨_, rfl⟩ := pure_eq_ok_iff.1 second
      exact ⟨.value .nothing, ⟨.value rfl, rfl, rfl⟩,
        Sink.takes_append_iff.2 ⟨between, first, Sink.takes_raw_nil_iff.2 rfl⟩⟩
    case character ch =>
      exact ⟨.value (.character ch), ⟨.value rfl, rfl, rfl⟩,
        Sink.takes_append_iff.2 ⟨between, first, raw_eq_ok_iff.1 second⟩⟩
    all_goals
      exact ⟨.value _, ⟨.value rfl, rfl, rfl⟩,
        Sink.takes_append_iff.2 ⟨between, first, word_eq_ok_iff.1 second⟩⟩
  · rintro ⟨entry, ⟨stands, plain⟩, taken⟩
    cases stands with
    | nested related =>
        obtain ⟨between, first, second⟩ := Sink.takes_append_iff.1 taken
        exact ⟨(), between, first, (h _ _ _ _).2 ⟨_, related, second⟩⟩
    | value _ =>
        obtain ⟨between, first, second⟩ := Sink.takes_append_iff.1 taken
        refine ⟨(), between, first, ?_⟩
        cases c
        case function id =>
          cases plain.1
        case record id =>
          cases plain.2
        case nothing =>
          exact pure_eq_ok_iff.2 ⟨rfl, (Sink.takes_raw_nil_iff.1 second).symm⟩
        case character ch =>
          exact raw_eq_ok_iff.2 second
        all_goals
          exact word_eq_ok_iff.2 second

/-- The record of a function is written as the record of a tree that can be written, with trees in
the places of functions. -/
theorem record_eq_ok_iff
    {d : Descriptor Constant}
    (h : Stores nested R image) :
    record nested d s = .ok u s' ↔
      ∃ pool, (Forall₂ (PoolEntry.StandsFor R) d.pool pool ∧
        CodeTree.Encodable (d.withPool pool)) ∧
        s.Takes (.record (.poolEntry image) (d.withPool pool)) s' := by
  have texts : Stores text (fun name other => True ∧ name = other) Image.text :=
    stores_of_eq_ok_iff fun _ _ _ _ => by rw [text_eq_ok_iff, true_and]
  have entries : Stores (constant nested) (fun c entry => entry.StandsFor R c ∧ entry.Plain)
      (Image.poolEntry image) :=
    fun _ _ _ _ => constant_eq_ok_iff h
  have lines : Stores lineRecord (fun record other => True ∧ record = other) Image.lineRecord :=
    stores_of_eq_ok_iff fun _ _ _ _ => by rw [lineRecord_eq_ok_iff, true_and]
  have code : Stores instruction (fun i j => i.operand.Writable ∧ i = j) Image.instruction :=
    stores_of_eq_ok_iff fun _ _ _ _ => instruction_eq_ok_iff
  simp only [record, bind_eq_ok_iff, nameList_eq_ok_iff, word64, word32, word16, word_eq_ok_iff,
    text_eq_ok_iff, table_eq_ok_iff texts, table_eq_ok_iff lines, table_eq_ok_iff code,
    table_eq_ok_iff_forall₂ entries, Image.record, Image.opening, Image.closing,
    Sink.takes_append_iff]
  constructor
  · rintro ⟨_, _, ⟨short, t₁⟩, _, _, ⟨_, t₂⟩, _, _, t₃, _, _, t₄, _, _, ⟨pool, stands, t₅⟩,
      _, _, t₆, _, _, t₇, _, _, t₈, _, _, ⟨_, t₉⟩, code_writable, t₁₀⟩
    obtain ⟨stands, plain⟩ := PoolEntry.forall₂_standsFor_and_iff.1 stands
    refine ⟨pool, ⟨stands, ⟨short, code_writable⟩, plain⟩, ?_⟩
    exact ⟨_, ⟨_, t₁, _, t₂, _, t₃, t₄⟩, _, t₅, _, t₆, _, t₇, _, t₈, _, t₉, t₁₀⟩
  · rintro ⟨pool, ⟨stands, writable, plain⟩,
      _, ⟨_, t₁, _, t₂, _, t₃, t₄⟩, _, t₅, _, t₆, _, t₇, _, t₈, _, t₉, t₁₀⟩
    exact ⟨(), _, ⟨writable.particles, t₁⟩, (), _, ⟨fun _ _ => trivial, t₂⟩, (), _, t₃, (), _, t₄,
      (), _, ⟨pool, PoolEntry.forall₂_standsFor_and_iff.2 ⟨stands, plain⟩, t₅⟩, (), _, t₆,
      (), _, t₇, (), _, t₈, (), _, ⟨fun _ _ => trivial, t₉⟩, writable.code, t₁₀⟩

end Write

namespace Program

open Step

variable {p : Program} {id : FunctionId} {opened : List DescriptorId} {tree : CodeTree}

/-- The tree that a function is written as inside open descriptors. -/
structure Written (p : Program) (opened : List DescriptorId) (id : FunctionId) (tree : CodeTree) :
    Prop where
  unfolds : p.Unfolds id tree
  encodable : ∀ node ∈ CodeTree.nodes tree, node.Encodable
  closed : ∀ descriptor ∈ opened, ¬ p.Meets id descriptor

/-- What a function is written as inside open descriptors, by what the functions of its pool are
written as when its own descriptor is open as well. -/
theorem written_iff
    {f : Function} {d : Descriptor Constant}
    (runs : p.function? id = some f)
    (found : p.descriptor? f.descriptor = some d) :
    p.Written opened id tree ↔
      f.descriptor ∉ opened ∧
        ∃ pool, (Forall₂ (PoolEntry.StandsFor (p.Written (f.descriptor :: opened))) d.pool pool ∧
          CodeTree.Encodable (d.withPool pool)) ∧ tree = d.withPool pool := by
  have runs_d : p.descriptorOf? id = some d := by
    rw [descriptorOf?, runs]
    exact found
  constructor
  · intro h
    obtain ⟨d', pool, found', entries, rfl⟩ := unfolds_iff.1 h.unfolds
    obtain rfl := Option.some.inj (runs_d.symm.trans found')
    obtain ⟨encodable, inside⟩ := CodeTree.forall_nodes_iff.1 h.encodable
    have closed : f.descriptor ∉ opened :=
      fun member => h.closed _ member ⟨id, f, .refl id, runs, rfl⟩
    refine ⟨closed, pool, ⟨?_, encodable⟩, rfl⟩
    refine PoolEntry.forall₂_standsFor_imp entries fun next sub among member unfolds => ?_
    refine ⟨unfolds, inside sub member, ?_⟩
    refine List.forall_mem_cons.2 ⟨h.unfolds.not_meets runs found among, ?_⟩
    rintro descriptor member ⟨last, g, reaches, runs', same⟩
    exact h.closed descriptor member ⟨last, g, .through runs_d among reaches, runs', same⟩
  · rintro ⟨closed, pool, ⟨entries, encodable⟩, rfl⟩
    refine ⟨?_, ?_, ?_⟩
    · exact .intro runs_d (PoolEntry.forall₂_standsFor_imp entries fun _ _ _ _ h => h.unfolds)
    · refine CodeTree.forall_nodes_iff.2 ⟨encodable, fun sub member => ?_⟩
      obtain ⟨_, _, h⟩ := PoolEntry.exists_function_of_mem entries member
      exact h.encodable
    · rintro descriptor member ⟨last, g, reaches, runs', same⟩
      cases reaches with
      | refl =>
          obtain rfl := Option.some.inj (runs.symm.trans runs')
          exact closed (same ▸ member)
      | through found' among reaches =>
          obtain rfl := Option.some.inj (runs_d.symm.trans found')
          obtain ⟨sub, _, h⟩ := PoolEntry.exists_nested_of_mem entries among
          exact h.closed descriptor (List.mem_cons_of_mem _ member) ⟨last, g, reaches, runs', same⟩

/-- A function whose descriptor is not there is not written. -/
theorem writeFunction_of_missing
    (missing : p.descriptorOf? id = none) :
    p.writeFunction opened id = throw (.unknownFunction id) := by
  rw [writeFunction]
  split
  · rfl
  · next f runs =>
    rw [descriptorOf?, runs] at missing
    split
    · rfl
    · next d found => cases found.symm.trans missing

section Running

variable {f : Function} {d : Descriptor Constant}
variable (runs : p.function? id = some f) (found : p.descriptor? f.descriptor = some d)
include runs found

/-- A descriptor that is open is not opened again. -/
theorem writeFunction_of_opened
    (inside : f.descriptor ∈ opened) :
    p.writeFunction opened id = throw (.recursiveFunction id) := by
  rw [writeFunction]
  split
  · next none => cases runs.symm.trans none
  · next f' runs' =>
    obtain rfl := Option.some.inj (runs.symm.trans runs')
    split
    · next none => cases found.symm.trans none
    · exact dif_pos inside

/-- A descriptor that is not open is opened. -/
theorem writeFunction_of_closed
    (closed : f.descriptor ∉ opened) :
    p.writeFunction opened id = Write.record (p.writeFunction (f.descriptor :: opened)) d := by
  rw [writeFunction]
  split
  · next none => cases runs.symm.trans none
  · next f' runs' =>
    obtain rfl := Option.some.inj (runs.symm.trans runs')
    split
    · next none => cases found.symm.trans none
    · next d' found' =>
      obtain rfl := Option.some.inj (found.symm.trans found')
      exact dif_neg closed

end Running

/-- The writer of functions stores the trees that functions are written as. -/
theorem writeFunction_eq_ok_iff
    (p : Program) (opened : List DescriptorId) :
    Write.Stores (p.writeFunction opened) (p.Written opened) CodeTree.image := by
  intro id s s' u
  induction opened, id using inside_induction (p := p) generalizing s s' with
  | missing opened id none =>
      rw [writeFunction_of_missing none]
      refine iff_of_false throw_ne_ok ?_
      rintro ⟨tree, h, _⟩
      obtain ⟨d, _, found, _⟩ := unfolds_iff.1 h.unfolds
      cases found.symm.trans none
  | inside opened id f d runs found member =>
      rw [writeFunction_of_opened runs found member]
      refine iff_of_false throw_ne_ok ?_
      rintro ⟨tree, h, _⟩
      exact (written_iff runs found).1 h |>.1 member
  | closed opened id f d runs found closed ih =>
      rw [writeFunction_of_closed runs found closed,
        Write.record_eq_ok_iff fun nested s s' _ => ih nested s s']
      constructor
      · rintro ⟨pool, stands, taken⟩
        refine ⟨d.withPool pool, (written_iff runs found).2 ⟨closed, pool, stands, rfl⟩, ?_⟩
        rw [CodeTree.image_eq_record]
        exact taken
      · rintro ⟨tree, h, taken⟩
        obtain ⟨_, pool, stands, rfl⟩ := (written_iff runs found).1 h
        rw [CodeTree.image_eq_record] at taken
        exact ⟨pool, stands, taken⟩

theorem encode_eq_ok_iff_write
    {order : ByteOrder} {bytes : List UInt8} :
    p.encode order = .ok bytes ↔
      ∃ s, p.write (Sink.empty order none) = .ok () s ∧ bytes = s.bytes.toList := by
  unfold encode writeTo
  cases p.write (Sink.empty order none) with
  | ok u s =>
      simp [eq_comm]
  | error e s =>
      simp

/-- The image of a program is the image of the tree of its root. There is one exactly when a root is
chosen that unfolds into a tree that can be written. -/
theorem encode_eq_ok_iff
    {order : ByteOrder} {bytes : List UInt8} :
    p.encode order = .ok bytes ↔
      ∃ root tree, (p.root = some root ∧ p.Unfolds root tree ∧
        ∀ node ∈ CodeTree.nodes tree, node.Encodable) ∧ bytes = CodeTree.image tree order := by
  have unlimited {image : Image} {s : Sink} :
      (Sink.empty order none).Takes image s ↔ s = (Sink.empty order none).add (image order) :=
    Sink.takes_iff_of_limit_none rfl
  have collected (added : List UInt8) :
      ((Sink.empty order none).add added).bytes.toList = added := by
    simp [Sink.empty, Sink.add]
  rw [encode_eq_ok_iff_write, write]
  cases p.root with
  | none =>
      simp
  | some root =>
      simp only [writeFunction_eq_ok_iff p [] root, unlimited]
      constructor
      · rintro ⟨s, ⟨tree, written, rfl⟩, rfl⟩
        exact ⟨root, tree, ⟨rfl, written.unfolds, written.encodable⟩, collected _⟩
      · rintro ⟨_, tree, ⟨⟨⟩, unfolds, encodable⟩, rfl⟩
        exact ⟨_, ⟨tree, ⟨unfolds, encodable, by simp⟩, rfl⟩, (collected _).symm⟩

end Program
end StackCode
