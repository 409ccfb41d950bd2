import StackCode.Proofs.Frame.Run

/-!
# Refused actions

A frame can be handled in any order, at any positions, and further after a refusal. One invariant
makes this safe: the depth never exceeds the number of slots. It says that the slot below the depth
is there unless the depth is zero, and that the slot at the depth is there unless the frame is full.
So no slot is read or written that is not there, and an action on the slots is refused in three
situations only, and refused before it changes anything. To move past the last position is refused
likewise.

Actions of two steps could do the first and be refused at the second. Storing asks for its slot
before it pops, loading reads before it pushes, and popping lowers the depth only if there is a slot
to read, so none of them leaves a half-done change.

**Results.**
* `Frame.Outcome.fits_or_refused`: one action on a frame that satisfies the invariant.
* `Frame.contained_run`: every action after every run.
-/

namespace StackCode
namespace Frame

/-- Why an action does not fit the frame, if it does not. Whether the slot that it names is there
comes first. -/
def misuse? (f : Frame) : Action → Option Misuse
  | .push _ | .tryPush _ => if f.depth = f.capacity then some (.overflow f.capacity) else none
  | .pop | .tryPop | .top => if f.depth = 0 then some .underflow else none
  | .store index =>
    if f.capacity ≤ index then some (.slotOutOfBounds f.capacity index)
    else if f.depth = 0 then some .underflow else none
  | .load index =>
    if f.capacity ≤ index then some (.slotOutOfBounds f.capacity index)
    else if f.depth = f.capacity then some (.overflow f.capacity) else none
  | .moveTo _ => none
  | .advance => if f.position = lastPosition then some .offsetOverflow else none

/-- The answer of an action that does not fit. Those that try hand their value back, or none out. -/
def Action.refusal : Action → Misuse → Except Misuse (Option Constant)
  | .tryPush value, _ => .ok (some value)
  | .tryPop, _ => .ok none
  | _, reason => .error reason

/-- The answer tells that the action failed. -/
def Action.Fails : Action → Except Misuse (Option Constant) → Prop
  | .tryPush _, answer => answer ≠ .ok none
  | .tryPop, answer => answer = .ok none
  | _, answer => ∃ reason, answer = .error reason

/-- The value that an action which fits hands out, if any. -/
def handedOut (f : Frame) : Action → Option Constant
  | .pop | .tryPop | .top => f.slot? (f.depth - 1)
  | _ => none

/-- The slot that an action which fits writes, if any. -/
def written? (f : Frame) : Action → Option Nat
  | .push _ | .tryPush _ | .load _ => some f.depth
  | .store index => some index
  | _ => none

/-- An action that fits answers, and leaves the slots alone that it does not write. -/
structure Fits (f : Frame) (a : Action) (answer : Except Misuse (Option Constant)) (f' : Frame) :
    Prop where
  answer : answer = .ok (f.handedOut a)
  others : ∀ index, f.written? a ≠ some index → f'.slot? index = f.slot? index

/-- The next action fits, or is refused without a trace. No slot is read or written that is not
there. -/
structure Contained (f : Frame) : Prop where
  depth : f.depth ≤ f.capacity
  slot : ∀ index, f.slot? index = none ↔ f.capacity ≤ index
  inside : ∀ (a : Action) capacity index, f.answer a ≠ .error (.missingSlot capacity index)
  fails : ∀ a : Action, a.Fails (f.answer a) ↔ ∃ reason, f.misuse? a = some reason
  refused : ∀ a reason, f.misuse? a = some reason →
    f.answer a = a.refusal reason ∧ f.after a = f
  fits : ∀ a, f.misuse? a = none → f.Fits a (f.answer a) (f.after a)

variable {f f' : Frame} {value : Constant} {index : Nat} {a : Action}

theorem slot?_pushed
    (other : index ≠ f.depth) :
    (f.pushed value).slot? index = f.slot? index :=
  Array.getElem?_setIfInBounds_ne (Ne.symm other)

theorem slot?_stored
    {asked : Nat}
    (other : asked ≠ index) :
    (f.stored index value).slot? asked = f.slot? asked :=
  Array.getElem?_setIfInBounds_ne (Ne.symm other)

/-- An action on a frame without missing slots fits, or is refused for a reason that the depth, the
number of slots and the position named give; then the frame stays as it was. -/
theorem Outcome.fits_or_refused
    {answer : Except Misuse (Option Constant)}
    (h : f.Outcome a answer f')
    (within : f.depth ≤ f.capacity) :
    (f.misuse? a = none ∧ f.Fits a answer f') ∨
      ∃ reason, f.misuse? a = some reason ∧ answer = a.refusal reason ∧ f' = f := by
  cases h with
  | push value room | tryPush value room =>
      refine Or.inl ⟨if_neg (Nat.ne_of_lt room), rfl, fun index other => slot?_pushed ?_⟩
      exact fun same => other (congrArg some same.symm)
  | push_full value full | tryPush_full value full =>
      exact Or.inr ⟨_, if_pos (Nat.le_antisymm within full), rfl, rfl⟩
  | pop found | tryPop found | top found =>
      refine Or.inl ⟨if_neg (Nat.ne_of_gt (depth_pos_of_top? found)), ?_, fun _ _ => rfl⟩
      rw [handedOut, slot?_of_top? found]
  | pop_bottom bottom | tryPop_bottom bottom | top_bottom bottom =>
      exact Or.inr ⟨_, if_pos bottom, rfl, rfl⟩
  | store inside found =>
      refine Or.inl ⟨?_, rfl, fun asked other => slot?_stored (f := f.popped) ?_⟩
      · rw [misuse?, if_neg (Nat.not_le.2 inside), if_neg (Nat.ne_of_gt (depth_pos_of_top? found))]
      · exact fun same => other (congrArg some same.symm)
  | store_bottom inside bottom =>
      refine Or.inr ⟨_, ?_, rfl, rfl⟩
      rw [misuse?, if_neg (Nat.not_le.2 inside), if_pos bottom]
  | store_outside outside =>
      exact Or.inr ⟨_, if_pos outside, rfl, rfl⟩
  | load found room =>
      have inside := lt_capacity_of_slot? found
      refine Or.inl ⟨?_, rfl, fun asked other => slot?_pushed ?_⟩
      · rw [misuse?, if_neg (Nat.not_le.2 inside), if_neg (Nat.ne_of_lt room)]
      · exact fun same => other (congrArg some same.symm)
  | load_full found full =>
      have inside := lt_capacity_of_slot? found
      refine Or.inr ⟨_, ?_, rfl, rfl⟩
      rw [misuse?, if_neg (Nat.not_le.2 inside), if_pos (Nat.le_antisymm within full)]
  | load_outside none =>
      exact Or.inr ⟨_, if_pos (slot?_eq_none_iff.1 none), rfl, rfl⟩
  | moveTo position =>
      exact Or.inl ⟨rfl, rfl, fun _ _ => rfl⟩
  | advance goes_on =>
      exact Or.inl ⟨if_neg goes_on, rfl, fun _ _ => rfl⟩
  | advance_last last =>
      exact Or.inr ⟨_, if_pos last, rfl, rfl⟩
  | pop_hollow hollow | tryPop_hollow hollow | top_hollow hollow | store_hollow _ hollow =>
      exact absurd hollow (not_hollow within)

/-- Every refusal tells that the action failed. -/
theorem Action.fails_refusal
    (a : Action) (reason : Misuse) :
    a.Fails (a.refusal reason) := by
  cases a with
  | tryPush value =>
      intro same
      cases same
  | tryPop =>
      rfl
  | push | pop | top | store | load | moveTo | advance =>
      exact ⟨reason, rfl⟩

/-- No answer of an action that fits tells that it failed. -/
theorem Fits.not_fails
    {answer : Except Misuse (Option Constant)}
    (h : f.Fits a answer f')
    (within : f.depth ≤ f.capacity)
    (unused : f.misuse? a = none) :
    ¬ a.Fails answer := by
  rw [h.answer]
  cases a with
  | tryPush value =>
      exact fun failed => failed rfl
  | tryPop =>
      -- What is handed out lies in a slot that is there.
      intro failed
      have used : f.depth ≠ 0 := fun bottom => by cases (if_pos bottom).symm.trans unused
      exact not_hollow within ⟨Nat.pos_of_ne_zero used, Except.ok.inj failed⟩
  | push | pop | top | store | load | moveTo | advance =>
      rintro ⟨reason, same⟩
      cases same

/-- When no slot is missing, every access is to a slot that is there. -/
theorem Outcome.ne_missingSlot
    {answer : Except Misuse (Option Constant)} {capacity : Nat}
    (h : f.Outcome a answer f')
    (within : f.depth ≤ f.capacity) :
    answer ≠ .error (.missingSlot capacity index) := by
  rintro rfl
  cases h with
  | pop_hollow hollow | tryPop_hollow hollow | top_hollow hollow | store_hollow _ hollow =>
      exact not_hollow within hollow

theorem contained_of_depth_le
    (within : f.depth ≤ f.capacity) :
    f.Contained := by
  have goes (a : Action) := (f.outcome a).fits_or_refused within
  refine ⟨within, fun _ => slot?_eq_none_iff, ?_, ?_, ?_, ?_⟩
  · exact fun a _ _ => (f.outcome a).ne_missingSlot within
  · intro a
    rcases goes a with ⟨unused, fits⟩ | ⟨reason, misuse, answer, _⟩
    · simp [unused, fits.not_fails within unused]
    · simp [misuse, answer, a.fails_refusal reason]
  · intro a reason misuse
    rcases goes a with ⟨unused, _⟩ | ⟨reason', misuse', answer, left⟩
    · cases unused.symm.trans misuse
    · obtain rfl := Option.some.inj (misuse'.symm.trans misuse)
      exact ⟨answer, left⟩
  · intro a unused
    rcases goes a with ⟨_, fits⟩ | ⟨reason, misuse, _, _⟩
    · exact fits
    · cases unused.symm.trans misuse

/-- Whatever was done to a frame, and whatever of it was refused, the number of slots is that of the
beginning, and the next action fits or is refused without a trace. -/
theorem contained_run
    {d : Descriptor Constant} {start : Frame}
    (made : start = .ofDescriptor d ∨ ∃ capacity, start = .withCapacity d capacity)
    (actions : List Action) :
    (start.run actions).capacity = start.capacity ∧ (start.run actions).Contained := by
  obtain ⟨capacity, rfl⟩ : ∃ capacity, start = .withCapacity d capacity := by
    rcases made with rfl | made
    · exact ⟨d.frameCapacity, rfl⟩
    · exact made
  exact ⟨capacity_run _ actions, contained_of_depth_le (depth_le_capacity_run d capacity actions)⟩

/-- Overflows a frame of two slots, names a slot that is not there, and pops past the bottom. -/
def blunders : List Action :=
  [.load 0, .load 1, .load 0, .store 2, .tryPush (.integer 7), .moveTo 3, .pop, .pop, .tryPop, .pop,
    .store 0, .store 9, .push (.boolean true)]

theorem contained_run_blunders :
    let f := (withCapacity (.named "blunders") 2).run blunders
    f.depth = 1 ∧ f.offset = 3 ∧ f.answer (.load 2) = .error (.slotOutOfBounds 2 2) ∧
      f.after (.load 2) = f ∧ f.answer .tryPop = .ok (some (.boolean true)) := by
  intro f
  have contained : f.Contained :=
    (contained_run (d := .named "blunders") (Or.inr ⟨2, rfl⟩) blunders).2
  obtain ⟨refused, unchanged⟩ := contained.refused (.load 2) (.slotOutOfBounds 2 2) rfl
  exact ⟨rfl, rfl, refused, unchanged, (contained.fits .tryPop rfl).answer⟩

end Frame
end StackCode
