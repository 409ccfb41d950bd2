import StackCode.Proofs.Frame.Run

/-!
# Taking more than was put

A frame refuses to give a value when no slot is in use at all. It does not know where its locals
end: when the evaluation stack is empty and there are locals, popping takes the topmost local, and
the next value that is pushed lies in its slot. So locals are safe from popping exactly in frames
that have none, and elsewhere it is for the code that runs to pop no more than it pushed.

**Results.**
* `Frame.refuses_of_depth`, `Frame.gives_of_depth`: what taking a value does at a depth.
* `Frame.guardsLocals_run_iff`: when no run takes a local.
-/

namespace StackCode
namespace Frame

/-- No value can be taken off the frame, and trying leaves it as it is. -/
structure Refuses (f : Frame) : Prop where
  pop : f.answer .pop = .error .underflow ∧ f.after .pop = f
  tryPop : f.answer .tryPop = .ok none ∧ f.after .tryPop = f
  store : ∀ index, index < f.capacity →
    f.answer (.store index) = .error .underflow ∧ f.after (.store index) = f

/-- A value is at the top of the frame, and can be taken off. -/
structure Gives (f : Frame) (value : Constant) : Prop where
  pop : f.answer .pop = .ok (some value) ∧ f.after .pop = f.popped
  tryPop : f.answer .tryPop = .ok (some value) ∧ f.after .tryPop = f.popped
  store : ∀ index, index < f.capacity →
    f.answer (.store index) = .ok none ∧ f.after (.store index) = f.popped.stored index value

/-- The locals of the frame are in use, and none of them is taken for a value of the stack. -/
structure GuardsLocals (f : Frame) : Prop where
  depth : f.descriptor.localCount.toNat ≤ f.depth
  refuses : f.depth = f.descriptor.localCount.toNat → f.Refuses

variable {f : Frame}

theorem refuses_of_depth
    (bottom : f.depth = 0) :
    f.Refuses :=
  ⟨(Outcome.pop_bottom bottom).eq, (Outcome.tryPop_bottom bottom).eq,
    fun _ inside => (Outcome.store_bottom inside bottom).eq⟩

theorem gives_of_depth
    {n : Nat}
    (within : f.depth ≤ f.capacity)
    (depth : f.depth = n + 1) :
    ∃ value, f.slot? n = some value ∧ f.Gives value := by
  have inside : n < f.slots.size := Nat.lt_of_lt_of_le (depth ▸ Nat.lt_succ_self n) within
  have slot : f.slot? n = some f.slots[n] := Array.getElem?_eq_getElem inside
  have found : f.top? = some f.slots[n] := by
    rw [top?, depth]
    exact slot
  exact ⟨_, slot, (Outcome.pop found).eq, (Outcome.tryPop found).eq,
    fun index inside => (Outcome.store inside found).eq⟩

/-- After any run, a value is refused only when no slot is in use; otherwise the one in the topmost
slot is taken, be it a local. So the locals of a descriptor are safe in every run exactly when it
has none. -/
theorem guardsLocals_run_iff
    (d : Descriptor Constant) :
    (∀ capacity actions,
      let f := (withCapacity d capacity).run actions
      (f.depth = 0 → f.Refuses) ∧
        ∀ n, f.depth = n + 1 → ∃ value, f.slot? n = some value ∧ f.Gives value) ∧
    ((∀ capacity actions, ((withCapacity d capacity).run actions).GuardsLocals) ↔
      d.localCount = 0) := by
  refine ⟨fun capacity actions => ⟨refuses_of_depth, fun n => ?_⟩, ?_, ?_⟩
  · exact gives_of_depth (depth_le_capacity_run d capacity actions)
  · intro guarded
    cases count : d.localCount.toNat with
    | zero =>
        exact UInt32.toNat_inj.1 count
    | succ n =>
        -- Before anything is pushed, the topmost local is at the top.
        have depth : ((withCapacity d 0).run []).depth = n + 1 := count
        obtain ⟨value, _, gives⟩ := gives_of_depth (depth_le_capacity_run d 0 []) depth
        have refused := ((guarded 0 []).refuses rfl).tryPop.1
        cases refused.symm.trans gives.tryPop.1
  · intro none capacity actions
    have count : ((withCapacity d capacity).run actions).descriptor.localCount.toNat = 0 := by
      rw [descriptor_run]
      exact congrArg UInt32.toNat none
    exact ⟨count ▸ Nat.zero_le _, fun bottom => refuses_of_depth (bottom.trans count)⟩

/-- A function with one local. -/
def keeping : Descriptor Constant :=
  { (.named "keeping" : Descriptor Constant) with localCount := 1 }

/-- The local of an empty evaluation stack is popped, and overwritten by what is pushed next. -/
theorem local_popped_and_overwritten :
    (withCapacity keeping 1).answer .tryPop = .ok (some .nothing) ∧
      ((withCapacity keeping 1).after .tryPop).depth = 0 ∧
      ((withCapacity keeping 1).run [.tryPop, .push (.integer 7)]).slot? 0 = some (.integer 7) :=
  ⟨rfl, rfl, rfl⟩

end Frame
end StackCode
