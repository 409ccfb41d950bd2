import StackCode.Descriptor.Basic

/-!
# Conditions on descriptors

Three conditions on a descriptor are told apart. It is *made* when its name lists and instructions
come from the operations that check them. It is *addressable* when its texts and lists are shorter
than the largest word, as on every machine with 64-bit sizes. It is *writable* when what is stored
behind one byte fits there: names of at most 255 bytes, and at most 255 captured variables.

A pool is the concern of the program or the tree that holds the descriptor; here only its length
plays a part.

**Results.**
* `NameList.isMade_iff`: the lists that can be made are those of at most 255 names.
* `Instruction.isMade_iff`: an instruction that is made has an operand of the right shape.
-/

namespace StackCode
namespace NameList

/-- The lists that the operations on name lists can build. -/
inductive IsMade : NameList → Prop
  | empty : IsMade .empty
  | push {list next : NameList} {name : String} :
      IsMade list → list.push name = .ok next → IsMade next
  | ofList {names : List String} {list : NameList} :
      NameList.ofList names = .ok list → IsMade list

/-- Every name has at most 255 bytes. -/
def Short (list : NameList) : Prop := ∀ name ∈ list.names, name.utf8ByteSize ≤ 255

theorem isMade_iff
    {list : NameList} :
    list.IsMade ↔ list.names.length ≤ maxLength := by
  constructor
  · intro made
    induction made with
    | empty =>
        exact Nat.zero_le _
    | @push list next name _ pushed ih =>
        unfold NameList.push at pushed
        split at pushed
        · cases pushed
        · next room =>
          cases pushed
          rw [List.length_append, List.length_singleton]
          omega
    | ofList done =>
        obtain ⟨fits, same⟩ := ofList_eq_ok_iff.1 done
        exact same ▸ fits
  · intro fits
    exact .ofList (ofList_eq_ok_iff.2 ⟨fits, rfl⟩)

end NameList

namespace Operand

/-- The name lists of the operand can be built. -/
def IsMade : Operand → Prop
  | names list => list.IsMade
  | record _ fields => fields.IsMade
  | _ => True

/-- The name lists in an operand. -/
def lists : Operand → List NameList
  | names list => [list]
  | record _ fields => [fields]
  | _ => []

theorem isMade_iff
    {o : Operand} :
    o.IsMade ↔ ∀ list ∈ o.lists, list.names.length ≤ NameList.maxLength := by
  cases o <;> simp [IsMade, lists, NameList.isMade_iff]

/-- What the operand stores behind one byte fits there. -/
def Writable : Operand → Prop
  | captures list => list.length ≤ 255
  | names list => list.Short
  | record name fields => name.utf8ByteSize ≤ 255 ∧ fields.Short
  | field name => name.utf8ByteSize ≤ 255
  | _ => True

end Operand

namespace Instruction

/-- The instructions that pairing an operation with an operand can build. -/
def IsMade (i : Instruction) : Prop :=
  ∃ opcode operand, operand.IsMade ∧ make opcode operand = .ok i

theorem isMade_iff
    {i : Instruction} :
    i.IsMade ↔ i.IsShaped ∧ i.operand.IsMade := by
  constructor
  · rintro ⟨opcode, operand, made, done⟩
    obtain ⟨rfl, shaped⟩ := make_eq_ok_iff.1 done
    exact ⟨shaped, made⟩
  · rintro ⟨shaped, made⟩
    exact ⟨i.opcode, i.operand, made, make_eq_ok_iff.2 ⟨rfl, shaped⟩⟩

end Instruction

namespace Descriptor

variable {κ ι : Type}

/-- The name lists and instructions can be built. -/
structure IsMade (d : Descriptor κ) : Prop where
  particles : d.particles.IsMade
  code : ∀ i ∈ d.code, i.IsMade

/-- What is stored behind one byte fits there. -/
structure Writable (d : Descriptor κ) : Prop where
  particles : d.particles.Short
  code : ∀ i ∈ d.code, i.operand.Writable

/-- The text of a change, if it is one of path, is shorter than the largest word. -/
def AddressableChange : LineChange → Prop
  | .line _ => True
  | .path name => name.utf8ByteSize < UInt64.size

/-- Every text and list that is stored behind a word of eight bytes is shorter than such a word can
count. -/
structure Addressable (d : Descriptor κ) : Prop where
  globals : d.globals.length < UInt64.size
  globalNames : ∀ name ∈ d.globals, name.utf8ByteSize < UInt64.size
  pool : d.pool.length < UInt64.size
  name : d.name.utf8ByteSize < UInt64.size
  path : d.origin.path.utf8ByteSize < UInt64.size
  lines : d.lines.records.length < UInt64.size
  linePaths : ∀ record ∈ d.lines.records, AddressableChange record.2
  code : d.code.length < UInt64.size

theorem IsMade.withPool
    {d : Descriptor κ}
    (h : d.IsMade)
    (pool : List ι) :
    (d.withPool pool).IsMade :=
  ⟨h.particles, h.code⟩

theorem writable_withPool_iff
    {d : Descriptor κ} {pool : List ι} :
    (d.withPool pool).Writable ↔ d.Writable :=
  ⟨fun h => ⟨h.particles, h.code⟩, fun h => ⟨h.particles, h.code⟩⟩

theorem Addressable.withPool
    {d : Descriptor κ} {pool : List ι}
    (h : d.Addressable)
    (length : pool.length = d.pool.length) :
    (d.withPool pool).Addressable :=
  ⟨h.globals, h.globalNames, length ▸ h.pool, h.name, h.path, h.lines, h.linePaths, h.code⟩

end Descriptor
end StackCode
