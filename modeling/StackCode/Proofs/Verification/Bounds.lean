import StackCode.Proofs.Closure
import StackCode.Proofs.Frame.Run
import StackCode.Proofs.Program.Run
import StackCode.Proofs.Verification.Resolution

/-!
# Verified programs stay in bounds

A frame keeps its descriptor and the number of its slots, which is at least the number of locals. So
what the verifier found to be there when it looked at a descriptor is there for every frame of the
descriptor, whatever was done to the frame since.

**Results.**
* `Program.inBounds_of_verify`: the instructions of a verified program, in every frame.
-/

namespace StackCode

/-- What an instruction of a descriptor looks up is found, in the program or in a frame of the
descriptor. A jump may also lead to the end of the code. A closure is refused only for want of
captures in the function that encloses it. -/
structure Instruction.InBounds (p : Program) (d : Descriptor Constant) (frame : Frame)
    (i : Instruction) : Prop where
  shaped : i.IsShaped
  constant : ∀ index, i = ⟨.push, .index index⟩ →
    ∃ c, frame.constant? index.toNat = some c ∧
      ∀ id, c = .function id → ∃ f, p.function? id = some f
  slot : ∀ index, i = ⟨.loadLocal, .index index⟩ ∨ i = ⟨.storeLocal, .index index⟩ →
    (∃ value, frame.slot? index.toNat = some value) ∧
      ∀ capacity asked left,
        Frame.load index.toNat frame ≠ .error (.slotOutOfBounds capacity asked) left ∧
        Frame.store index.toNat frame ≠ .error (.slotOutOfBounds capacity asked) left
  global : ∀ index, i = ⟨.loadGlobal, .index index⟩ ∨ i = ⟨.storeGlobal, .index index⟩ →
    ∃ name, d.globals[index.toNat]? = some name
  target : ∀ target, i = ⟨.jump, .index target⟩ ∨ i = ⟨.popJumpIfFalse, .index target⟩ →
    (d.code[target.toNat]? = none ↔ target.toNat = d.code.length)
  closure : ∀ wanted, i = ⟨.close, .captures wanted⟩ → ∀ f enclosing : Function,
    (∀ e, f.capture wanted frame enclosing = .error e →
      ∃ index, e = .captureOutOfRange .captured index enclosing.captures.length) ∧
    ((∃ e, f.capture wanted frame enclosing = .error e) ↔
      ∃ v ∈ wanted, v.kind = .captured ∧ enclosing.captures.length ≤ v.index.toNat)

namespace Frame

variable {f left : Frame} {index capacity asked : Nat}

/-- Loading from a slot that is there can only overflow the frame. -/
theorem load_ne_slotOutOfBounds
    (inside : index < f.capacity) :
    load index f ≠ .error (.slotOutOfBounds capacity asked) left := by
  have found : f.slot? index = some f.slots[index] := Array.getElem?_eq_getElem inside
  rw [load_of_slot? found]
  by_cases room : f.depth < f.capacity
  · rw [push_of_room room]
    simp
  · rw [push_of_full (Nat.le_of_not_lt room)]
    simp

/-- Storing to a slot that is there can only fail for want of a value. -/
theorem store_ne_slotOutOfBounds
    (inside : index < f.capacity) :
    store index f ≠ .error (.slotOutOfBounds capacity asked) left := by
  rcases f.depth_or_top? with bottom | ⟨value, found⟩ | hollow
  · rw [store_of_bottom inside bottom]
    simp
  · rw [store_of_top? inside found]
    simp
  · rw [store_of_hollow inside hollow]
    simp

end Frame

namespace Function

variable {frame : Frame} {enclosing f : Function} {wanted : List Variable}

/-- If every local among the variables is there, a closure is refused only for want of captures. -/
theorem capture_eq_error_of_slots
    {e : Error}
    (slots : frame.descriptor.localCount.toNat ≤ frame.capacity)
    (inside : ∀ v ∈ wanted, v.kind = .slot → v.index.toNat < frame.descriptor.localCount.toNat)
    (refused : f.capture wanted frame enclosing = .error e) :
    ∃ v ∈ wanted, v.kind = .captured ∧ enclosing.captures.length ≤ v.index.toNat ∧
      e = .captureOutOfRange .captured v.index enclosing.captures.length := by
  rcases capture_outcome slots f wanted with
    ⟨_, captures, _, done⟩ | ⟨before, v, rest, same, _, outside, first⟩
  · cases done.symm.trans refused
  · have member : v ∈ wanted := by
      rw [same]
      exact List.mem_append_right _ List.mem_cons_self
    obtain rfl := Except.error.inj (first.symm.trans refused)
    cases kind : v.kind with
    | slot =>
        rw [kind] at outside
        exact absurd (inside v member kind) (Nat.not_lt.2 outside)
    | captured =>
        rw [kind] at outside
        exact ⟨v, member, kind, outside, rfl⟩

end Function

namespace Instruction

variable {p : Program} {d : Descriptor Constant} {frame : Frame} {i : Instruction}

/-- An instruction that resolves is in bounds in every frame with the locals of the descriptor. -/
theorem Resolves.inBounds
    (h : i.Resolves p d)
    (shaped : i.IsShaped)
    (serves : frame.descriptor = d)
    (slots : d.localCount.toNat ≤ frame.capacity) :
    i.InBounds p d frame := by
  refine ⟨shaped, ?_, ?_, ?_, ?_, ?_⟩
  · intro index same
    rw [Frame.constant?, serves]
    exact h.constant index same
  · intro index same
    have inside : index.toNat < frame.capacity :=
      Nat.lt_of_lt_of_le (UInt32.lt_iff_toNat_lt.1 (h.slot index same)) slots
    refine ⟨⟨frame.slots[index.toNat], Array.getElem?_eq_getElem inside⟩, ?_⟩
    intro capacity asked left
    exact ⟨Frame.load_ne_slotOutOfBounds inside, Frame.store_ne_slotOutOfBounds inside⟩
  · intro index same
    exact ⟨_, List.getElem?_eq_getElem (h.global index same)⟩
  · intro target same
    have within := h.target target same
    rw [List.getElem?_eq_none_iff]
    omega
  · intro wanted same f enclosing
    subst serves
    have inside : ∀ v ∈ wanted, v.kind = .slot →
        v.index.toNat < frame.descriptor.localCount.toNat := by
      intro v member kind
      have below := UInt32.lt_iff_toNat_lt.1 (h.captured wanted same v member kind)
      rw [UInt8.toNat_toUInt32] at below
      exact below
    constructor
    · intro e refused
      obtain ⟨v, _, _, _, error⟩ := Function.capture_eq_error_of_slots slots inside refused
      exact ⟨v.index, error⟩
    · constructor
      · rintro ⟨e, refused⟩
        obtain ⟨v, member, kind, outside, _⟩ :=
          Function.capture_eq_error_of_slots slots inside refused
        exact ⟨v, member, kind, outside⟩
      · rintro ⟨v, member, kind, outside⟩
        refine (Function.exists_capture_eq_error_iff slots).2 ⟨v, member, ?_⟩
        rw [kind]
        exact outside

end Instruction

namespace Program

/-- The instructions of a verified program are in bounds in every frame that is made for their
descriptor, whatever is done to the frame. -/
theorem inBounds_of_verify
    {p : Program} {d : Descriptor Constant} {start : Frame} {i : Instruction}
    (built : p.Reachable Descriptor.IsMade)
    (verified : p.verify = .ok ())
    (owned : d ∈ p.descriptors)
    (made : start = .ofDescriptor d ∨ ∃ capacity, start = .withCapacity d capacity)
    (actions : List Frame.Action)
    (member : i ∈ d.code) :
    i.InBounds p d (start.run actions) := by
  have descriptor_made : d.IsMade :=
    built.forall_descriptors (fun _ h => h) (fun _ h _ => h) d owned
  have shaped : i.IsShaped := (Instruction.isMade_iff.1 (descriptor_made.code i member)).1
  have resolves : i.Resolves p d :=
    (Descriptor.verify_eq_ok_iff.1 (verify_eq_ok_iff.1 verified d owned)).2 i member
  obtain ⟨capacity, rfl⟩ : ∃ capacity, start = .withCapacity d capacity := by
    rcases made with rfl | made
    · exact ⟨d.frameCapacity, rfl⟩
    · exact made
  exact resolves.inBounds shaped (Frame.descriptor_run _ actions)
    (Frame.localCount_le_capacity_run d capacity actions)

/-- An instruction that captures a local and a captured variable. -/
def closing : Instruction := ⟨.close, .captures [⟨.slot, 0⟩, ⟨.captured, 3⟩]⟩

/-- A function with one local that loads it, captures it, and jumps to its end. -/
def looper : Descriptor Constant :=
  { (.named "looper" : Descriptor Constant) with
    localCount := 1
    pool := [.function ⟨0⟩]
    code := [⟨.push, .index 0⟩, ⟨.loadLocal, .index 0⟩, closing, ⟨.jump, .index 4⟩] }

theorem inBounds_of_verify_looper :
    closing.InBounds (empty.register looper).2 looper
      ((Frame.withCapacity looper 0).run
        [.pop, .pop, .store 7, .push (.boolean true), .load 0]) := by
  have made : looper.IsMade := by
    refine ⟨.empty, fun i member => Instruction.isMade_iff.2 ?_⟩
    simp only [looper, closing, List.mem_cons, List.not_mem_nil, or_false] at member
    rcases member with rfl | rfl | rfl | rfl
    all_goals exact ⟨rfl, trivial⟩
  have built : (empty.register looper).2.Reachable Descriptor.IsMade :=
    .step .empty (.register made)
  exact inBounds_of_verify built (by decide) Array.mem_push_self (Or.inr ⟨0, rfl⟩) _ (by decide)

end Program
end StackCode
