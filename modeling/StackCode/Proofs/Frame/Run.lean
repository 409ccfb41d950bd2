import StackCode.Frame
import StackCode.Proofs.Step

/-!
# Runs over frames

An action is an operation on a frame with its arguments. A run goes on from the frame that an action
leaves behind, whether the action succeeded or was refused. What an action can do to a frame is said
once, as an `Outcome` with its answer and as a `Change` without it; everything that holds along runs
follows from these.

**Results.**
* `Frame.outcome`: what an action answers and leaves.
* `Frame.change_after`: what an action can do.
* `Frame.descriptor_run`, `Frame.capacity_run`: what no run changes.
-/

namespace StackCode
namespace Frame

open Step

/-- An operation on a frame. Those that try hand back a value where the others are refused. -/
inductive Action where
  | push (value : Constant)
  | tryPush (value : Constant)
  | pop
  | tryPop
  | top
  | store (index : Nat)
  | load (index : Nat)
  | moveTo (position : UInt64)
  | advance
deriving DecidableEq

/-- Performs an action, and gives the value that it hands out, if any. -/
def Action.perform : Action → Operation (Option Constant)
  | push value => do
    Frame.push value
    return none
  | tryPush value => Frame.tryPush value
  | pop => do return some (← Frame.pop)
  | tryPop => Frame.tryPop
  | top => do return some (← Frame.top)
  | store index => do
    Frame.store index
    return none
  | load index => do
    Frame.load index
    return none
  | moveTo position => do
    Frame.moveTo position.toNat
    return none
  | advance => do
    Frame.advance
    return none

/-- The frame that an action leaves behind. -/
def after (f : Frame) (a : Action) : Frame :=
  match a.perform f with
  | .ok _ next => next
  | .error _ left => left

/-- What an action answers: the value that it hands out, if any, or why it was refused. -/
def answer (f : Frame) (a : Action) : Except Misuse (Option Constant) :=
  match a.perform f with
  | .ok result _ => .ok result
  | .error e _ => .error e

/-- The frame that actions leave behind, one after the other. -/
def run (f : Frame) (actions : List Action) : Frame := actions.foldl after f

/-- The value in the topmost slot in use, if there is such a slot. -/
def top? (f : Frame) : Option Constant :=
  match f.depth with
  | 0 => none
  | below + 1 => f.slot? below

/-- The frame with a value above those in use. -/
def pushed (f : Frame) (value : Constant) : Frame :=
  { f with slots := f.slots.setIfInBounds f.depth value, depth := f.depth + 1 }

/-- The frame without the value at the top. -/
def popped (f : Frame) : Frame := { f with depth := f.depth - 1 }

/-- The frame with a value in a slot. -/
def stored (f : Frame) (index : Nat) (value : Constant) : Frame :=
  { f with slots := f.slots.setIfInBounds index value }

/-- Some slot is in use, but the topmost one is missing. No operation looks out for this. -/
structure Hollow (f : Frame) : Prop where
  depth : 0 < f.depth
  slot : f.slot? (f.depth - 1) = none

variable {f f' : Frame} {value : Constant} {index : Nat}

theorem slot?_eq_none_iff :
    f.slot? index = none ↔ f.capacity ≤ index :=
  Array.getElem?_eq_none_iff

theorem lt_capacity_of_slot?
    (found : f.slot? index = some value) :
    index < f.capacity :=
  (Array.getElem?_eq_some_iff.1 found).1

/-- A value can only be at the top if a slot is in use. -/
theorem depth_pos_of_top?
    (found : f.top? = some value) :
    0 < f.depth := by
  unfold top? at found
  split at found
  · cases found
  · next depth => omega

theorem top?_of_pos
    (used : 0 < f.depth) :
    f.top? = f.slot? (f.depth - 1) := by
  obtain ⟨below, depth⟩ := Nat.exists_eq_add_one.2 used
  rw [top?, depth]
  rfl

/-- The value at the top is that of the slot below the depth. -/
theorem slot?_of_top?
    (found : f.top? = some value) :
    f.slot? (f.depth - 1) = some value :=
  (top?_of_pos (depth_pos_of_top? found)).symm.trans found

/-- There is a value at the top unless no slot is in use, or the one that is meant is missing. -/
theorem depth_or_top?
    (f : Frame) :
    f.depth = 0 ∨ (∃ value, f.top? = some value) ∨ f.Hollow := by
  rcases Nat.eq_zero_or_pos f.depth with bottom | used
  · exact Or.inl bottom
  · cases found : f.slot? (f.depth - 1) with
    | none =>
        exact Or.inr (Or.inr ⟨used, found⟩)
    | some value =>
        exact Or.inr (Or.inl ⟨value, (top?_of_pos used).trans found⟩)

/-- With no more slots in use than there are, none of those in use is missing. -/
theorem not_hollow
    (within : f.depth ≤ f.capacity) :
    ¬ f.Hollow := by
  intro hollow
  have used := hollow.depth
  have missing := slot?_eq_none_iff.1 hollow.slot
  omega

theorem read_of_slot?
    (found : f.slot? index = some value) :
    read index f = .ok value f := by
  rw [read, get_bind, found]
  rfl

theorem read_of_missing
    (missing : f.slot? index = none) :
    read index f = .error (.missingSlot f.capacity index) f := by
  rw [read, get_bind, missing]
  rfl

theorem write_of_inside
    (inside : index < f.capacity) :
    write index value f = .ok () (f.stored index value) := by
  rw [write, get_bind, if_neg (Nat.not_le.2 inside)]
  rfl

theorem tryPush_of_room
    (room : f.depth < f.capacity) :
    tryPush value f = .ok none (f.pushed value) := by
  rw [tryPush, get_bind, if_neg (Nat.not_le.2 room)]
  exact bind_of_eq_ok (write_of_inside room)

theorem tryPush_of_full
    (full : f.capacity ≤ f.depth) :
    tryPush value f = .ok (some value) f := by
  rw [tryPush, get_bind, if_pos full]
  rfl

theorem push_of_room
    (room : f.depth < f.capacity) :
    push value f = .ok () (f.pushed value) :=
  bind_of_eq_ok (tryPush_of_room room)

theorem push_of_full
    (full : f.capacity ≤ f.depth) :
    push value f = .error (.overflow f.capacity) f :=
  bind_of_eq_ok (tryPush_of_full full)

theorem tryPop_of_bottom
    (bottom : f.depth = 0) :
    tryPop f = .ok none f := by
  rw [tryPop, get_bind, bottom]
  rfl

/-- The depth is lowered before the slot is read. -/
theorem tryPop_of_pos
    (used : 0 < f.depth) :
    tryPop f = (do return some (← read (f.depth - 1)) : Operation _) f.popped := by
  obtain ⟨below, depth⟩ := Nat.exists_eq_add_one.2 used
  rw [tryPop, get_bind, popped, depth]
  rfl

theorem tryPop_of_top?
    (found : f.top? = some value) :
    tryPop f = .ok (some value) f.popped := by
  rw [tryPop_of_pos (depth_pos_of_top? found)]
  exact bind_of_eq_ok (read_of_slot? (f := f.popped) (slot?_of_top? found))

theorem tryPop_of_hollow
    (hollow : f.Hollow) :
    tryPop f = .error (.missingSlot f.capacity (f.depth - 1)) f.popped := by
  rw [tryPop_of_pos hollow.depth]
  exact bind_of_eq_error (read_of_missing (f := f.popped) hollow.slot)

theorem pop_of_bottom
    (bottom : f.depth = 0) :
    pop f = .error .underflow f :=
  bind_of_eq_ok (tryPop_of_bottom bottom)

theorem pop_of_top?
    (found : f.top? = some value) :
    pop f = .ok value f.popped :=
  bind_of_eq_ok (tryPop_of_top? found)

theorem pop_of_hollow
    (hollow : f.Hollow) :
    pop f = .error (.missingSlot f.capacity (f.depth - 1)) f.popped :=
  bind_of_eq_error (tryPop_of_hollow hollow)

theorem top_of_bottom
    (bottom : f.depth = 0) :
    top f = .error .underflow f := by
  rw [top, get_bind, bottom]
  rfl

theorem top_of_pos
    (used : 0 < f.depth) :
    top f = read (f.depth - 1) f := by
  obtain ⟨below, depth⟩ := Nat.exists_eq_add_one.2 used
  rw [top, get_bind, depth]
  rfl

theorem top_of_top?
    (found : f.top? = some value) :
    top f = .ok value f :=
  (top_of_pos (depth_pos_of_top? found)).trans (read_of_slot? (slot?_of_top? found))

theorem top_of_hollow
    (hollow : f.Hollow) :
    top f = .error (.missingSlot f.capacity (f.depth - 1)) f :=
  (top_of_pos hollow.depth).trans (read_of_missing hollow.slot)

/-- That the slot exists is checked before anything is popped. -/
theorem store_of_outside
    (outside : f.capacity ≤ index) :
    store index f = .error (.slotOutOfBounds f.capacity index) f := by
  rw [store, get_bind, if_pos outside]
  rfl

/-- Behind the check, storing is popping and writing. -/
theorem store_of_inside
    (inside : index < f.capacity) :
    store index f = (pop >>= write index) f := by
  rw [store, get_bind, if_neg (Nat.not_le.2 inside)]

theorem store_of_bottom
    (inside : index < f.capacity)
    (bottom : f.depth = 0) :
    store index f = .error .underflow f :=
  (store_of_inside inside).trans (bind_of_eq_error (pop_of_bottom bottom))

theorem store_of_top?
    (inside : index < f.capacity)
    (found : f.top? = some value) :
    store index f = .ok () (f.popped.stored index value) :=
  (store_of_inside inside).trans <|
    (bind_of_eq_ok (pop_of_top? found)).trans (write_of_inside (f := f.popped) inside)

theorem store_of_hollow
    (inside : index < f.capacity)
    (hollow : f.Hollow) :
    store index f = .error (.missingSlot f.capacity (f.depth - 1)) f.popped :=
  (store_of_inside inside).trans (bind_of_eq_error (pop_of_hollow hollow))

theorem load_of_slot?
    (found : f.slot? index = some value) :
    load index f = push value f := by
  rw [load, get_bind, found]

theorem load_of_outside
    (outside : f.slot? index = none) :
    load index f = .error (.slotOutOfBounds f.capacity index) f := by
  rw [load, get_bind, outside]
  rfl

theorem moveTo_toNat
    (position : UInt64) :
    moveTo position.toNat f = .ok () { f with position } := by
  change EStateM.Result.ok () { f with position := UInt64.ofNat position.toNat } = _
  rw [UInt64.ofNat_toNat]

theorem advance_of_ne
    (goes_on : f.position ≠ lastPosition) :
    advance f = .ok () { f with position := f.position + 1 } := by
  rw [advance, get_bind, if_neg goes_on]
  rfl

theorem advance_of_last
    (last : f.position = lastPosition) :
    advance f = .error .offsetOverflow f := by
  rw [advance, get_bind, if_pos last]
  rfl

/-- What an action answers, and which frame it leaves. There is one case for each way in which the
action can go. -/
inductive Outcome (f : Frame) : Action → Except Misuse (Option Constant) → Frame → Prop
  | push (value : Constant) : f.depth < f.capacity →
      Outcome f (.push value) (.ok none) (f.pushed value)
  | push_full (value : Constant) : f.capacity ≤ f.depth →
      Outcome f (.push value) (.error (.overflow f.capacity)) f
  | tryPush (value : Constant) : f.depth < f.capacity →
      Outcome f (.tryPush value) (.ok none) (f.pushed value)
  | tryPush_full (value : Constant) : f.capacity ≤ f.depth →
      Outcome f (.tryPush value) (.ok (some value)) f
  | pop {value : Constant} : f.top? = some value →
      Outcome f .pop (.ok (some value)) f.popped
  | pop_bottom : f.depth = 0 →
      Outcome f .pop (.error .underflow) f
  | pop_hollow : f.Hollow →
      Outcome f .pop (.error (.missingSlot f.capacity (f.depth - 1))) f.popped
  | tryPop {value : Constant} : f.top? = some value →
      Outcome f .tryPop (.ok (some value)) f.popped
  | tryPop_bottom : f.depth = 0 →
      Outcome f .tryPop (.ok none) f
  | tryPop_hollow : f.Hollow →
      Outcome f .tryPop (.error (.missingSlot f.capacity (f.depth - 1))) f.popped
  | top {value : Constant} : f.top? = some value →
      Outcome f .top (.ok (some value)) f
  | top_bottom : f.depth = 0 →
      Outcome f .top (.error .underflow) f
  | top_hollow : f.Hollow →
      Outcome f .top (.error (.missingSlot f.capacity (f.depth - 1))) f
  | store {index : Nat} {value : Constant} : index < f.capacity → f.top? = some value →
      Outcome f (.store index) (.ok none) (f.popped.stored index value)
  | store_bottom {index : Nat} : index < f.capacity → f.depth = 0 →
      Outcome f (.store index) (.error .underflow) f
  | store_hollow {index : Nat} : index < f.capacity → f.Hollow →
      Outcome f (.store index) (.error (.missingSlot f.capacity (f.depth - 1))) f.popped
  | store_outside {index : Nat} : f.capacity ≤ index →
      Outcome f (.store index) (.error (.slotOutOfBounds f.capacity index)) f
  | load {index : Nat} {value : Constant} : f.slot? index = some value → f.depth < f.capacity →
      Outcome f (.load index) (.ok none) (f.pushed value)
  | load_full {index : Nat} {value : Constant} : f.slot? index = some value →
      f.capacity ≤ f.depth → Outcome f (.load index) (.error (.overflow f.capacity)) f
  | load_outside {index : Nat} : f.slot? index = none →
      Outcome f (.load index) (.error (.slotOutOfBounds f.capacity index)) f
  | moveTo (position : UInt64) :
      Outcome f (.moveTo position) (.ok none) { f with position }
  | advance : f.position ≠ lastPosition →
      Outcome f .advance (.ok none) { f with position := f.position + 1 }
  | advance_last : f.position = lastPosition →
      Outcome f .advance (.error .offsetOverflow) f

theorem eq_of_perform_eq_ok
    {a : Action} {result : Option Constant}
    (done : a.perform f = .ok result f') :
    f.answer a = .ok result ∧ f.after a = f' := by
  rw [answer, after, done]
  exact ⟨rfl, rfl⟩

theorem eq_of_perform_eq_error
    {a : Action} {e : Misuse}
    (refused : a.perform f = .error e f') :
    f.answer a = .error e ∧ f.after a = f' := by
  rw [answer, after, refused]
  exact ⟨rfl, rfl⟩

/-- An action goes in the way that the frame allows. -/
theorem Outcome.eq
    {a : Action} {answer : Except Misuse (Option Constant)}
    (h : f.Outcome a answer f') :
    f.answer a = answer ∧ f.after a = f' := by
  cases h with
  | push value room =>
      exact eq_of_perform_eq_ok (bind_of_eq_ok (push_of_room room))
  | push_full value full =>
      exact eq_of_perform_eq_error (bind_of_eq_error (push_of_full full))
  | tryPush value room =>
      exact eq_of_perform_eq_ok (tryPush_of_room room)
  | tryPush_full value full =>
      exact eq_of_perform_eq_ok (tryPush_of_full full)
  | pop found =>
      exact eq_of_perform_eq_ok (bind_of_eq_ok (pop_of_top? found))
  | pop_bottom bottom =>
      exact eq_of_perform_eq_error (bind_of_eq_error (pop_of_bottom bottom))
  | pop_hollow hollow =>
      exact eq_of_perform_eq_error (bind_of_eq_error (pop_of_hollow hollow))
  | tryPop found =>
      exact eq_of_perform_eq_ok (tryPop_of_top? found)
  | tryPop_bottom bottom =>
      exact eq_of_perform_eq_ok (tryPop_of_bottom bottom)
  | tryPop_hollow hollow =>
      exact eq_of_perform_eq_error (tryPop_of_hollow hollow)
  | top found =>
      exact eq_of_perform_eq_ok (bind_of_eq_ok (top_of_top? found))
  | top_bottom bottom =>
      exact eq_of_perform_eq_error (bind_of_eq_error (top_of_bottom bottom))
  | top_hollow hollow =>
      exact eq_of_perform_eq_error (bind_of_eq_error (top_of_hollow hollow))
  | store inside found =>
      exact eq_of_perform_eq_ok (bind_of_eq_ok (store_of_top? inside found))
  | store_bottom inside bottom =>
      exact eq_of_perform_eq_error (bind_of_eq_error (store_of_bottom inside bottom))
  | store_hollow inside hollow =>
      exact eq_of_perform_eq_error (bind_of_eq_error (store_of_hollow inside hollow))
  | store_outside outside =>
      exact eq_of_perform_eq_error (bind_of_eq_error (store_of_outside outside))
  | load found room =>
      exact eq_of_perform_eq_ok
        (bind_of_eq_ok ((load_of_slot? found).trans (push_of_room room)))
  | load_full found full =>
      exact eq_of_perform_eq_error
        (bind_of_eq_error ((load_of_slot? found).trans (push_of_full full)))
  | load_outside outside =>
      exact eq_of_perform_eq_error (bind_of_eq_error (load_of_outside outside))
  | moveTo position =>
      exact eq_of_perform_eq_ok (bind_of_eq_ok (moveTo_toNat position))
  | advance goes_on =>
      exact eq_of_perform_eq_ok (bind_of_eq_ok (advance_of_ne goes_on))
  | advance_last last =>
      exact eq_of_perform_eq_error (bind_of_eq_error (advance_of_last last))

/-- Every frame allows every action in some way. -/
theorem exists_outcome
    (f : Frame) (a : Action) :
    ∃ answer f', f.Outcome a answer f' := by
  cases a with
  | push value =>
      rcases Nat.lt_or_ge f.depth f.capacity with room | full
      · exact ⟨_, _, .push value room⟩
      · exact ⟨_, _, .push_full value full⟩
  | tryPush value =>
      rcases Nat.lt_or_ge f.depth f.capacity with room | full
      · exact ⟨_, _, .tryPush value room⟩
      · exact ⟨_, _, .tryPush_full value full⟩
  | pop =>
      rcases f.depth_or_top? with bottom | ⟨value, found⟩ | hollow
      · exact ⟨_, _, .pop_bottom bottom⟩
      · exact ⟨_, _, .pop found⟩
      · exact ⟨_, _, .pop_hollow hollow⟩
  | tryPop =>
      rcases f.depth_or_top? with bottom | ⟨value, found⟩ | hollow
      · exact ⟨_, _, .tryPop_bottom bottom⟩
      · exact ⟨_, _, .tryPop found⟩
      · exact ⟨_, _, .tryPop_hollow hollow⟩
  | top =>
      rcases f.depth_or_top? with bottom | ⟨value, found⟩ | hollow
      · exact ⟨_, _, .top_bottom bottom⟩
      · exact ⟨_, _, .top found⟩
      · exact ⟨_, _, .top_hollow hollow⟩
  | store index =>
      rcases Nat.lt_or_ge index f.capacity with inside | outside
      · rcases f.depth_or_top? with bottom | ⟨value, found⟩ | hollow
        · exact ⟨_, _, .store_bottom inside bottom⟩
        · exact ⟨_, _, .store inside found⟩
        · exact ⟨_, _, .store_hollow inside hollow⟩
      · exact ⟨_, _, .store_outside outside⟩
  | load index =>
      cases found : f.slot? index with
      | none =>
          exact ⟨_, _, .load_outside found⟩
      | some value =>
          rcases Nat.lt_or_ge f.depth f.capacity with room | full
          · exact ⟨_, _, .load found room⟩
          · exact ⟨_, _, .load_full found full⟩
  | moveTo position =>
      exact ⟨_, _, .moveTo position⟩
  | advance =>
      by_cases last : f.position = lastPosition
      · exact ⟨_, _, .advance_last last⟩
      · exact ⟨_, _, .advance last⟩

theorem outcome
    (f : Frame) (a : Action) :
    f.Outcome a (f.answer a) (f.after a) := by
  obtain ⟨answer, f', h⟩ := f.exists_outcome a
  obtain ⟨rfl, rfl⟩ := h.eq
  exact h

/-- What an action can do to a frame, whatever it answers. -/
inductive Change (f : Frame) : Frame → Prop
  | stays : Change f f
  | pushed (value : Constant) : f.depth < f.capacity → Change f (f.pushed value)
  | popped : 0 < f.depth → Change f f.popped
  | stored (index : Nat) (value : Constant) :
      0 < f.depth → index < f.capacity → Change f (f.popped.stored index value)
  | moved (position : UInt64) : Change f { f with position }

theorem Outcome.change
    {a : Action} {answer : Except Misuse (Option Constant)}
    (h : f.Outcome a answer f') :
    f.Change f' := by
  cases h with
  | push value room | tryPush value room =>
      exact .pushed value room
  | load _ room =>
      exact .pushed _ room
  | pop found | tryPop found =>
      exact .popped (depth_pos_of_top? found)
  | pop_hollow hollow | tryPop_hollow hollow | store_hollow _ hollow =>
      exact .popped hollow.depth
  | store inside found =>
      exact .stored _ _ (depth_pos_of_top? found) inside
  | moveTo position =>
      exact .moved position
  | advance =>
      exact .moved (f.position + 1)
  | push_full | tryPush_full | pop_bottom | tryPop_bottom | top | top_bottom | top_hollow
  | store_bottom | store_outside | load_full | load_outside | advance_last =>
      exact .stays

theorem change_after
    (f : Frame) (a : Action) :
    f.Change (f.after a) :=
  (f.outcome a).change

/-- No action changes the descriptor. -/
theorem Change.descriptor_eq
    (h : f.Change f') :
    f'.descriptor = f.descriptor := by
  cases h <;> rfl

/-- No action changes the number of slots. -/
theorem Change.capacity_eq
    (h : f.Change f') :
    f'.capacity = f.capacity := by
  cases h with
  | pushed value _ =>
      exact Array.size_setIfInBounds
  | stored index value _ _ =>
      exact Array.size_setIfInBounds
  | stays | popped _ | moved _ =>
      rfl

/-- No action uses a slot that is not there. -/
theorem Change.depth_le_capacity
    (h : f.Change f')
    (within : f.depth ≤ f.capacity) :
    f'.depth ≤ f'.capacity := by
  rw [h.capacity_eq]
  cases h with
  | pushed value room =>
      exact room
  | stored index value _ _ | popped _ =>
      exact Nat.le_trans (Nat.sub_le _ _) within
  | stays | moved _ =>
      exact within

/-- What every action keeps, every run keeps. -/
theorem run_invariant
    {P : Frame → Prop}
    (keeps : ∀ (f : Frame) (a : Action), P f → P (f.after a))
    (before : P f)
    (actions : List Action) :
    P (f.run actions) := by
  induction actions generalizing f with
  | nil =>
      exact before
  | cons a actions ih =>
      exact ih (keeps f a before)

theorem descriptor_run
    (f : Frame) (actions : List Action) :
    (f.run actions).descriptor = f.descriptor :=
  run_invariant (P := fun g => g.descriptor = f.descriptor)
    (fun g a h => (change_after g a).descriptor_eq.trans h) rfl actions

theorem capacity_run
    (f : Frame) (actions : List Action) :
    (f.run actions).capacity = f.capacity :=
  run_invariant (P := fun g => g.capacity = f.capacity)
    (fun g a h => (change_after g a).capacity_eq.trans h) rfl actions

section

variable (d : Descriptor Constant) (capacity : Nat) (actions : List Action)

theorem capacity_withCapacity :
    (withCapacity d capacity).capacity = max capacity d.localCount.toNat :=
  Array.size_replicate

theorem depth_le_capacity_run :
    ((withCapacity d capacity).run actions).depth ≤
      ((withCapacity d capacity).run actions).capacity := by
  refine run_invariant (P := fun f => f.depth ≤ f.capacity)
    (fun f a => (change_after f a).depth_le_capacity) ?_ actions
  rw [capacity_withCapacity]
  exact Nat.le_max_right _ _

/-- A frame of a descriptor has a slot for every local, whatever number of slots was asked for and
whatever was done to it. -/
theorem localCount_le_capacity_run :
    d.localCount.toNat ≤ ((withCapacity d capacity).run actions).capacity := by
  rw [capacity_run, capacity_withCapacity]
  exact Nat.le_max_right _ _

end

end Frame
end StackCode
