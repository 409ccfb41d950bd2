import StackCode.Dump.Program
import StackCode.Proofs.Image.Writing
import StackCode.Proofs.Program.Run
import StackCode.Verification

/-!
# Where programs come from

The writer does not look at the length of a name list or at the shape of an operand. It relies on
the operations by which lists and instructions are made, and a caller has no other access to what
they hold. All ways in which a caller can come by a list, an instruction, a descriptor or a program
are put together here in one relation. What is obtained in these ways is *checked*: its lists have
at most 255 names, and its operands have the shape that their operations take.

One way goes past the checks. A program that is loaded from data notation is taken as it stands, and
so are its parts. All that is obtained is checked exactly when every loaded program is.

What depends on the checks is what is written. The byte in front of the names of a list counts them
only if they are not more than 255, and an operand is read back only in the shape that its operation
takes.

**Results.**
* `NameList.counted_iff`, `Instruction.readsBack_iff`: what the writer relies on.
* `Part.checked_of_obtained`: all ways but loading keep to the checks.
* `Part.reliable_of_obtained_iff`: the programs that can be obtained.
-/

namespace StackCode

namespace NameList

/-- The bytes of a name in a list. -/
def storedName (name : String) : List UInt8 := UInt8.ofNat name.utf8ByteSize :: Write.utf8 name

/-- The list has a length that a byte can hold, and the byte in front of its names is their
number. -/
structure Counted (list : NameList) : Prop where
  length_le : list.names.length ≤ maxLength
  toNat_count : list.count.toNat = list.names.length
  written : ∀ s s' : Sink, Write.nameList list s = .ok () s' →
    ∃ (number : UInt8) (texts : List (List UInt8)),
      s' = s.add (number :: texts.flatten) ∧
        texts = list.names.map storedName ∧ number.toNat = texts.length

theorem concat_shortText_apply
    (names : List String) (order : ByteOrder) :
    Image.concat Image.shortText names order = (names.map storedName).flatten := by
  induction names with
  | nil =>
      rfl
  | cons first others ih =>
      rw [List.map_cons, List.flatten_cons, ← ih, Image.concat, Image.append_apply, Image.shortText,
        Image.word_one]
      rfl

/-- The bytes of a list: its count, be it the number of names or not, and the names. -/
theorem image_apply
    (list : NameList) (order : ByteOrder) :
    Image.nameList list order = list.count :: (list.names.map storedName).flatten := by
  rw [← concat_shortText_apply list.names order, Image.nameList, Image.shortTable, Image.word_one]
  rfl

theorem counted_iff
    {list : NameList} :
    list.Counted ↔ list.names.length ≤ maxLength := by
  refine ⟨fun h => h.length_le, fun short => ⟨short, toNat_count short, ?_⟩⟩
  intro s s' done
  obtain ⟨_, taken⟩ := Write.nameList_eq_ok_iff.1 done
  refine ⟨list.count, _, ?_, rfl, ?_⟩
  · rw [taken.sink, image_apply]
  · rw [toNat_count short, List.length_map]

/-- The byte in front of 256 names is zero. -/
example : count ⟨List.replicate 256 "x"⟩ = 0 := by decide +kernel

end NameList

namespace Instruction

/-- Wherever the instruction is written, its operand is what a reader finds behind the code of the
operation. -/
def ReadsBack (i : Instruction) : Prop :=
  ∀ s s' : Sink, Write.instruction i s = .ok () s' →
    ∃ bytes, s' = s.add (i.opcode.code :: bytes) ∧
      ∀ offset rest,
        Read.operand i.opcode.shape ⟨bytes ++ rest, offset, s.order⟩ =
          .ok i.operand ⟨rest, offset + bytes.length, s.order⟩

/-- The instructions that are read back are those that can be made, and those that cannot be
written. -/
theorem readsBack_iff
    {i : Instruction} :
    i.ReadsBack ↔ (i.operand.Writable → i.IsMade) := by
  constructor
  · intro reads writable
    have taken : (Sink.empty .little none).Takes (.instruction i) _ :=
      (Sink.takes_iff_of_limit_none rfl).2 rfl
    obtain ⟨bytes, _, read⟩ := reads _ _ (Write.instruction_eq_ok_iff.2 ⟨writable, taken⟩)
    obtain ⟨⟨shaped, made, _⟩, _⟩ := Read.operand_eq_ok_iff.1 (read 0 [])
    exact isMade_iff.2 ⟨shaped, made⟩
  · intro made s s' done
    obtain ⟨writable, taken⟩ := Write.instruction_eq_ok_iff.1 done
    obtain ⟨shaped, operand⟩ := isMade_iff.1 (made writable)
    refine ⟨Image.operand i.operand s.order, ?_, fun offset rest => ?_⟩
    · rw [taken.sink, Image.instruction, Image.byte_eq_raw]
      rfl
    · exact Read.operand_eq_ok_iff.2 ⟨⟨shaped, operand, writable⟩, rfl, rfl, rfl⟩

end Instruction

/-- The name lists in a descriptor. -/
def Descriptor.nameLists (d : Descriptor Constant) : List NameList :=
  d.particles :: d.code.flatMap fun i => i.operand.lists

/-- What a caller can hold of a program, or the whole of it. -/
inductive Part where
  | names (list : NameList)
  | operand (o : Operand)
  | instruction (i : Instruction)
  | descriptor (d : Descriptor Constant)
  | program (p : Program)

/-- What can be taken out of a part. -/
inductive Part.Holds : Part → Part → Prop
  | names {o : Operand} {list : NameList} :
      list ∈ o.lists → Holds (.operand o) (.names list)
  | operand {i : Instruction} :
      Holds (.instruction i) (.operand i.operand)
  | particles {d : Descriptor Constant} :
      Holds (.descriptor d) (.names d.particles)
  | code {d : Descriptor Constant} {i : Instruction} :
      i ∈ d.code → Holds (.descriptor d) (.instruction i)
  | descriptor {p : Program} {d : Descriptor Constant} :
      d ∈ p.descriptors → Holds (.program p) (.descriptor d)

/-- What a caller can obtain who may load some texts in data notation. Operands and descriptors are
put together freely from what has been obtained. -/
inductive Obtained (Loads : String → Prop) : Part → Prop
  | empty : Obtained Loads (.names .empty)
  | push {list next : NameList} {name : String} :
      Obtained Loads (.names list) → list.push name = .ok next → Obtained Loads (.names next)
  | ofList {names : List String} {list : NameList} :
      NameList.ofList names = .ok list → Obtained Loads (.names list)
  | operand {o : Operand} :
      (∀ list ∈ o.lists, Obtained Loads (.names list)) → Obtained Loads (.operand o)
  | make {opcode : Opcode} {o : Operand} {i : Instruction} :
      Obtained Loads (.operand o) → Instruction.make opcode o = .ok i →
      Obtained Loads (.instruction i)
  | descriptor {d : Descriptor Constant} :
      Obtained Loads (.names d.particles) → (∀ i ∈ d.code, Obtained Loads (.instruction i)) →
      Obtained Loads (.descriptor d)
  | start : Obtained Loads (.program .empty)
  | decoded {settings : Settings} {bytes : List UInt8} {p : Program} :
      Program.decode settings bytes = .ok p → Obtained Loads (.program p)
  /-- No check is made of what a text holds. -/
  | loaded {text : String} {p : Program} :
      Loads text → Program.load? text = some p → Obtained Loads (.program p)
  | step {Admits : Descriptor Constant → Prop} {p p' : Program} :
      Obtained Loads (.program p) → (∀ d, Admits d → Obtained Loads (.descriptor d)) →
      p.Step Admits p' → Obtained Loads (.program p')
  | part {whole part : Part} :
      Obtained Loads whole → whole.Holds part → Obtained Loads part

namespace Part

/-- The name lists in a part. -/
def lists : Part → List NameList
  | names list => [list]
  | operand o => o.lists
  | instruction i => i.operand.lists
  | descriptor d => d.nameLists
  | program p => p.descriptors.toList.flatMap Descriptor.nameLists

/-- The instructions in a part. -/
def instructions : Part → List Instruction
  | names _ | operand _ => []
  | instruction i => [i]
  | descriptor d => d.code
  | program p => p.descriptors.toList.flatMap Descriptor.code

/-- The part is as if it had passed all checks. -/
structure Checked (part : Part) : Prop where
  lists : ∀ list ∈ part.lists, list.names.length ≤ NameList.maxLength
  instructions : ∀ i ∈ part.instructions, i.IsShaped

/-- The part is checked, and is written as it can be read. -/
structure Reliable (part : Part) : Prop where
  lists : ∀ list ∈ part.lists, list.Counted
  instructions : ∀ i ∈ part.instructions, i.IsShaped ∧ i.ReadsBack

variable {part whole : Part} {Loads : String → Prop}

theorem Holds.mem_lists
    {list : NameList}
    (h : whole.Holds part)
    (member : list ∈ part.lists) :
    list ∈ whole.lists := by
  cases h with
  | names known =>
      exact List.mem_singleton.1 member ▸ known
  | operand =>
      exact member
  | particles =>
      exact List.mem_cons.2 (.inl (List.mem_singleton.1 member))
  | code known =>
      exact List.mem_cons_of_mem _ (List.mem_flatMap.2 ⟨_, known, member⟩)
  | descriptor known =>
      exact List.mem_flatMap.2 ⟨_, Array.mem_toList_iff.2 known, member⟩

theorem Holds.mem_instructions
    {i : Instruction}
    (h : whole.Holds part)
    (member : i ∈ part.instructions) :
    i ∈ whole.instructions := by
  cases h with
  | names _ | operand | particles =>
      cases member
  | code known =>
      exact List.mem_singleton.1 member ▸ known
  | descriptor known =>
      exact List.mem_flatMap.2 ⟨_, Array.mem_toList_iff.2 known, member⟩

/-- What an instruction of a part holds, the part holds. -/
theorem mem_lists_of_mem_instructions
    {i : Instruction} {list : NameList}
    (known : i ∈ part.instructions)
    (member : list ∈ i.operand.lists) :
    list ∈ part.lists := by
  cases part with
  | names _ | operand _ =>
      cases known
  | instruction j =>
      exact List.mem_singleton.1 known ▸ member
  | descriptor d =>
      exact (Holds.code known).mem_lists member
  | program p =>
      obtain ⟨d, inside, known⟩ := List.mem_flatMap.1 known
      exact (Holds.descriptor (Array.mem_toList_iff.1 inside)).mem_lists
        ((Holds.code known).mem_lists member)

theorem Checked.of_holds
    (h : whole.Checked)
    (held : whole.Holds part) :
    part.Checked :=
  ⟨fun list member => h.lists list (held.mem_lists member),
    fun i member => h.instructions i (held.mem_instructions member)⟩

/-- The checks are all that the writer relies on. -/
theorem reliable_iff_checked :
    part.Reliable ↔ part.Checked := by
  constructor
  · intro h
    exact ⟨fun list member => (h.lists list member).length_le,
      fun i member => (h.instructions i member).1⟩
  · intro h
    refine ⟨fun list member => NameList.counted_iff.2 (h.lists list member), fun i known => ?_⟩
    have shaped : i.IsShaped := h.instructions i known
    have operand : i.operand.IsMade := Operand.isMade_iff.2 fun list member =>
      h.lists list (mem_lists_of_mem_instructions known member)
    exact ⟨shaped, Instruction.readsBack_iff.2 fun _ => Instruction.isMade_iff.2 ⟨shaped, operand⟩⟩

theorem checked_names_iff
    {list : NameList} :
    (names list).Checked ↔ list.IsMade := by
  rw [NameList.isMade_iff]
  refine ⟨fun h => h.lists list List.mem_cons_self, fun short => ⟨?_, nofun⟩⟩
  intro list' member
  exact List.mem_singleton.1 member ▸ short

theorem checked_operand_iff
    {o : Operand} :
    (operand o).Checked ↔ ∀ list ∈ o.lists, (names list).Checked := by
  constructor
  · intro h list member
    exact h.of_holds (.names member)
  · intro h
    exact ⟨fun list member => (h list member).lists list List.mem_cons_self, nofun⟩

theorem checked_instruction_iff
    {i : Instruction} :
    (instruction i).Checked ↔ i.IsShaped ∧ (operand i.operand).Checked := by
  constructor
  · intro h
    exact ⟨h.instructions i List.mem_cons_self, h.of_holds .operand⟩
  · rintro ⟨shaped, h⟩
    exact ⟨h.lists, fun j member => List.mem_singleton.1 member ▸ shaped⟩

theorem checked_descriptor_iff
    {d : Descriptor Constant} :
    (descriptor d).Checked ↔
      (names d.particles).Checked ∧ ∀ i ∈ d.code, (instruction i).Checked := by
  constructor
  · intro h
    exact ⟨h.of_holds .particles, fun i member => h.of_holds (.code member)⟩
  · rintro ⟨particles, code⟩
    constructor
    · intro list member
      rcases List.mem_cons.1 member with rfl | inside
      · exact particles.lists _ List.mem_cons_self
      · obtain ⟨i, known, inside⟩ := List.mem_flatMap.1 inside
        exact (code i known).lists list inside
    · intro i known
      exact (code i known).instructions i List.mem_cons_self

theorem checked_program_iff
    {p : Program} :
    (program p).Checked ↔ ∀ d ∈ p.descriptors, (descriptor d).Checked := by
  constructor
  · intro h d member
    exact h.of_holds (.descriptor member)
  · intro h
    constructor
    · intro list member
      obtain ⟨d, known, inside⟩ := List.mem_flatMap.1 member
      exact (h d (Array.mem_toList_iff.1 known)).lists list inside
    · intro i member
      obtain ⟨d, known, inside⟩ := List.mem_flatMap.1 member
      exact (h d (Array.mem_toList_iff.1 known)).instructions i inside

/-- The descriptors that can be made are checked. -/
theorem checked_of_isMade
    {d : Descriptor Constant}
    (made : d.IsMade) :
    (descriptor d).Checked := by
  refine checked_descriptor_iff.2 ⟨checked_names_iff.2 made.particles, fun i member => ?_⟩
  obtain ⟨shaped, operand⟩ := Instruction.isMade_iff.1 (made.code i member)
  exact checked_instruction_iff.2 ⟨shaped, Operand.isMade_iff.1 operand, nofun⟩

/-- No way of obtaining a part goes past the checks, if the programs that are loaded are checked. -/
theorem checked_of_obtained
    (loads : ∀ text p, Loads text → Program.load? text = some p → (program p).Checked)
    (h : Obtained Loads part) :
    part.Checked := by
  induction h with
  | empty =>
      exact checked_names_iff.2 .empty
  | push _ pushed ih =>
      exact checked_names_iff.2 (.push (checked_names_iff.1 ih) pushed)
  | ofList done =>
      exact checked_names_iff.2 (.ofList done)
  | operand _ ih =>
      exact checked_operand_iff.2 ih
  | make _ done ih =>
      obtain ⟨rfl, shaped⟩ := Instruction.make_eq_ok_iff.1 done
      exact checked_instruction_iff.2 ⟨shaped, ih⟩
  | descriptor _ _ particles code =>
      exact checked_descriptor_iff.2 ⟨particles, code⟩
  | start =>
      exact checked_program_iff.2 fun d member => by simp [Program.empty] at member
  | decoded done =>
      exact checked_program_iff.2 fun d member =>
        checked_of_isMade (Program.storable_of_decode_eq_ok done d member).1
  | loaded known done =>
      exact loads _ _ known done
  | step _ _ step before admits =>
      exact checked_program_iff.2 (step.forall_descriptors admits (checked_program_iff.1 before))
  | part _ held ih =>
      exact ih.of_holds held

/-- Two things are relied on when a part is written: lists are short and operands are shaped. An
instruction that can be written is read back only then. All programs that a caller can obtain are
reliable exactly when the programs that the caller may load have been checked; loading does not see
to it. So they all are if nothing is loaded. -/
theorem reliable_of_obtained_iff
    (Loads : String → Prop) :
    (∀ (i : Instruction) (s s' : Sink), Write.instruction i s = .ok () s' →
      (i.ReadsBack ↔ i.IsShaped ∧ ∀ list ∈ i.operand.lists, list.Counted)) ∧
    ((∀ p, Obtained Loads (program p) → (program p).Reliable) ↔
      ∀ text p, Loads text → Program.load? text = some p → (program p).Checked) := by
  refine ⟨fun i s s' done => ?_, ?_, ?_⟩
  · have writable : i.operand.Writable := (Write.instruction_eq_ok_iff.1 done).1
    rw [Instruction.readsBack_iff, Instruction.isMade_iff, Operand.isMade_iff]
    simp only [writable, forall_const, NameList.counted_iff]
  · intro reliable text p known done
    exact reliable_iff_checked.1 (reliable p (.loaded known done))
  · intro loads p obtained
    exact reliable_iff_checked.2 (checked_of_obtained loads obtained)

end Part

namespace Program

theorem load?_ofList
    (cs : List Char) :
    load? (String.ofList cs) = ((datumShape.whole cs.length).run' cs).bind ofDatum? := by
  rw [load?, Reader.readText, String.toList_ofList]
  rfl

/-- A descriptor whose only instruction pushes a constant, and does not say which. -/
def pushing : Descriptor Constant :=
  { (.named "f" : Descriptor Constant) with code := [⟨.push, .none⟩] }

def pushingProgram : Program := { (empty.register pushing).2 with root := some ⟨0⟩ }

/-- The program in data notation. -/
def pushingText : String :=
  "(infos:[(name:\"f\",origin:(path:\"\",line:0),josa_list:([]),global_list:[],
    stack_operand_count:0,local_variable_count:0,constant_list:([]),line_map:([]),
    instruction_list:([(opcode:0,operand:None)]))],
    functions:[(info:(0),josa_map:(\x7b\x7d),free_variables:[])],
    root:Some((0)),names:\x7b\"f\":(0)\x7d)"

/-- What is written of the program. It ends behind the code of the operation. -/
def pushingImage : List UInt8 :=
  List.replicate 29 0 ++ [1, 0, 0, 0, 0, 0, 0, 0, 102] ++ List.replicate 18 0 ++
    [1, 0, 0, 0, 0, 0, 0, 0, 0]

set_option maxRecDepth 2000 in
theorem load?_pushingText : load? pushingText = some pushingProgram :=
  (load?_ofList _).trans (by decide +kernel)

theorem encode_pushingProgram : pushingProgram.encode .little = .ok pushingImage := by
  have unfolds : pushingProgram.Unfolds ⟨0⟩ (pushing.withPool []) := .intro (d := pushing) rfl .nil
  have encodable : ∀ node ∈ CodeTree.nodes (pushing.withPool []), node.Encodable := by
    refine CodeTree.forall_nodes_iff.2 ⟨⟨⟨nofun, fun i member => ?_⟩, nofun⟩, nofun⟩
    exact List.mem_singleton.1 member ▸ trivial
  exact encode_eq_ok_iff.2 ⟨⟨0⟩, _, ⟨rfl, unfolds, encodable⟩, by decide +kernel⟩

/-- The program can be loaded and passes verification. It is written without an error, and what is
written is no image. -/
theorem pushing_obtained_and_corrupt :
    Obtained (· = pushingText) (.program pushingProgram) ∧
      ¬ (Part.program pushingProgram).Reliable ∧ pushingProgram.verify = .ok () ∧
      pushingProgram.encode .little = .ok pushingImage ∧
      decode .standard pushingImage = .error (.corrupt 65 (.unexpectedEnd 4 0)) := by
  refine ⟨.loaded rfl load?_pushingText, fun reliable => ?_, rfl, encode_pushingProgram, rfl⟩
  have shaped := (reliable.instructions ⟨.push, .none⟩ (by decide)).1
  exact absurd shaped (by decide)

end Program
end StackCode
