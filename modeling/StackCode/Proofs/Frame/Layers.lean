import StackCode.Proofs.Frame.Run

/-!
# Locals below, stack above

A frame is meant as two layers: the locals, and above them an evaluation stack. Both lie in one row
of slots, and nothing marks where one ends. The layers stay apart as long as a call takes from the
stack only what it put there, and names only locals.

The invariant is an equation on lists: the values in the slots in use are those of the locals,
followed by those of the stack. What stands in the slots above is never read, so values that were
popped may stay there. The position in the code is kept beside the layers, as it decides whether
there is a next one.

**Results.**
* `Frame.Outcome.shows`: one action on a frame and on its layers.
* `Frame.layered_run`: every run that is permitted.
-/

namespace StackCode
namespace Frame

/-- The values in the slots in use, from the lowest slot up. -/
def values (f : Frame) : List Constant := f.slots.toList.take f.depth

/-- The values of a call as they are meant, those of the evaluation stack from the bottom up, and
the position in its code. -/
structure Layers where
  locals : List Constant
  stack : List Constant
  position : UInt64
deriving DecidableEq

namespace Layers

/-- The layers of a call that begins. -/
def start (d : Descriptor Constant) : Layers := ⟨.replicate d.localCount.toNat .nothing, [], 0⟩

def size (l : Layers) : Nat := l.locals.length + l.stack.length

def pushed (l : Layers) (value : Constant) : Layers := { l with stack := l.stack ++ [value] }

def popped (l : Layers) : Layers := { l with stack := l.stack.dropLast }

def withLocal (l : Layers) (index : Nat) (value : Constant) : Layers :=
  { l with locals := l.locals.set index value }

/-- The actions that keep the layers apart: values are taken from a stack that has some, and only
locals are named. -/
def Permits (l : Layers) : Action → Prop
  | .pop | .tryPop | .top => l.stack ≠ []
  | .store index => l.stack ≠ [] ∧ index < l.locals.length
  | .load index => index < l.locals.length
  | .push _ | .tryPush _ | .moveTo _ | .advance => True

instance (l : Layers) : (a : Action) → Decidable (l.Permits a)
  | .pop | .tryPop | .top => inferInstanceAs (Decidable (l.stack ≠ []))
  | .store index => inferInstanceAs (Decidable (l.stack ≠ [] ∧ index < l.locals.length))
  | .load index => inferInstanceAs (Decidable (index < l.locals.length))
  | .push _ | .tryPush _ | .moveTo _ | .advance => inferInstanceAs (Decidable True)

/-- What an action that is permitted answers, and which layers it leaves, if there is room for a
given number of values. -/
def perform (slots : Nat) (l : Layers) : Action → Except Misuse (Option Constant) × Layers
  | .push value =>
    if l.size = slots then (.error (.overflow slots), l) else (.ok none, l.pushed value)
  | .tryPush value =>
    if l.size = slots then (.ok (some value), l) else (.ok none, l.pushed value)
  | .pop | .tryPop => (.ok l.stack.getLast?, l.popped)
  | .top => (.ok l.stack.getLast?, l)
  | .store index => (.ok none, (l.stack.getLast?.elim l (l.withLocal index)).popped)
  | .load index =>
    if l.size = slots then (.error (.overflow slots), l)
    else (.ok none, l.locals[index]?.elim l l.pushed)
  | .moveTo position => (.ok none, { l with position })
  | .advance =>
    if l.position = lastPosition then (.error .offsetOverflow, l)
    else (.ok none, { l with position := l.position + 1 })

/-- The layers that actions leave behind, one after the other. -/
def run (slots : Nat) (l : Layers) (actions : List Action) : Layers :=
  actions.foldl (fun l a => (l.perform slots a).2) l

/-- Every action is permitted where it comes. -/
def Permitted (slots : Nat) : Layers → List Action → Prop
  | _, [] => True
  | l, a :: rest => l.Permits a ∧ Permitted slots (l.perform slots a).2 rest

instance decidablePermitted (slots : Nat) :
    (l : Layers) → (actions : List Action) → Decidable (l.Permitted slots actions)
  | _, [] => inferInstanceAs (Decidable True)
  | l, a :: rest =>
    have := decidablePermitted slots (l.perform slots a).2 rest
    inferInstanceAs (Decidable (l.Permits a ∧ _))

end Layers

/-- A frame holds the values of some layers: the locals lie in the slots below, the stack in those
above, and no other slot is in use. It stands at the same position. -/
structure Shows (f : Frame) (l : Layers) : Prop where
  locals : l.locals.length = f.descriptor.localCount.toNat
  within : f.depth ≤ f.capacity
  values : f.values = l.locals ++ l.stack
  position : f.position = l.position

variable {f f' : Frame} {l : Layers} {value : Constant} {index : Nat}

theorem length_values
    (within : f.depth ≤ f.capacity) :
    f.values.length = f.depth := by
  rw [values, List.length_take, Array.length_toList]
  exact Nat.min_eq_left within

theorem slot?_eq_values
    (used : index < f.depth) :
    f.slot? index = f.values[index]? := by
  rw [values, List.getElem?_take_of_lt used, Array.getElem?_toList, slot?]

/-- The value at the top is the last of those in use. -/
theorem top?_eq_getLast?
    (within : f.depth ≤ f.capacity) :
    f.top? = f.values.getLast? := by
  rw [List.getLast?_eq_getElem?, length_values within, top?]
  cases depth : f.depth with
  | zero =>
      rw [values, depth]
      rfl
  | succ below =>
      exact slot?_eq_values (by omega)

theorem values_pushed
    (room : f.depth < f.capacity) :
    (f.pushed value).values = f.values ++ [value] := by
  have used : f.depth < f.slots.toList.length := room
  change ((f.slots.setIfInBounds f.depth value).toList).take (f.depth + 1) = _
  rw [Array.toList_setIfInBounds, List.take_add_one, List.take_set_of_le (Nat.le_refl _),
    List.getElem?_set_self used]
  rfl

theorem values_popped
    (within : f.depth ≤ f.capacity) :
    f.popped.values = f.values.dropLast := by
  rw [List.dropLast_eq_take, length_values within, values, values, List.take_take,
    Nat.min_eq_left (Nat.sub_le _ _)]
  rfl

theorem values_stored :
    (f.stored index value).values = f.values.set index value := by
  change ((f.slots.setIfInBounds index value).toList).take f.depth = _
  rw [Array.toList_setIfInBounds, List.take_set, values]

namespace Shows

theorem depth_eq
    (h : f.Shows l) :
    f.depth = l.size := by
  rw [← length_values h.within, h.values, List.length_append, Layers.size]

/-- The layers leave no room when the frame does not. -/
theorem size_eq
    (h : f.Shows l)
    (full : f.capacity ≤ f.depth) :
    l.size = f.capacity :=
  h.depth_eq.symm.trans (Nat.le_antisymm h.within full)

theorem size_ne
    (h : f.Shows l)
    (room : f.depth < f.capacity) :
    l.size ≠ f.capacity :=
  h.depth_eq ▸ Nat.ne_of_lt room

theorem slot?_local
    (h : f.Shows l)
    (inside : index < l.locals.length) :
    f.slot? index = l.locals[index]? := by
  have used : index < f.depth := by
    rw [h.depth_eq, Layers.size]
    omega
  rw [slot?_eq_values used, h.values, List.getElem?_append_left inside]

theorem slot?_stack
    (h : f.Shows l)
    (inside : index < l.stack.length) :
    f.slot? (l.locals.length + index) = l.stack[index]? := by
  have used : l.locals.length + index < f.depth := by
    rw [h.depth_eq, Layers.size]
    omega
  rw [slot?_eq_values used, h.values, List.getElem?_append_right (Nat.le_add_right _ _),
    Nat.add_sub_cancel_left]

/-- The value at the top is the last one of a stack that has some. -/
theorem top?_eq
    (h : f.Shows l)
    (some : l.stack ≠ []) :
    f.top? = l.stack.getLast? := by
  obtain ⟨value, last⟩ := Option.ne_none_iff_exists'.1 (mt List.getLast?_eq_none_iff.1 some)
  rw [top?_eq_getLast? h.within, h.values, List.getLast?_append, last, Option.some_or]

theorem pushed
    (h : f.Shows l)
    (room : f.depth < f.capacity) :
    (f.pushed value).Shows (l.pushed value) := by
  refine ⟨h.locals, (Change.pushed value room).depth_le_capacity h.within, ?_, h.position⟩
  rw [values_pushed room, h.values, List.append_assoc]
  rfl

theorem popped
    (h : f.Shows l)
    (some : l.stack ≠ []) :
    f.popped.Shows l.popped := by
  refine ⟨h.locals, Nat.le_trans (Nat.sub_le _ _) h.within, ?_, h.position⟩
  rw [values_popped h.within, h.values, List.dropLast_append_of_ne_nil some]
  rfl

theorem stored
    (h : f.Shows l)
    (inside : index < l.locals.length) :
    (f.stored index value).Shows (l.withLocal index value) := by
  refine ⟨(List.length_set ..).trans h.locals, ?_, ?_, h.position⟩
  · exact Nat.le_trans h.within (Nat.le_of_eq Array.size_setIfInBounds.symm)
  · rw [values_stored, h.values, List.set_append_left _ _ inside]
    rfl

/-- A stack that has some value is in slots in use. -/
theorem depth_ne_zero
    (h : f.Shows l)
    (some : l.stack ≠ []) :
    f.depth ≠ 0 := by
  have nonempty := List.length_pos_iff.2 some
  rw [h.depth_eq, Layers.size]
  omega

theorem moved
    (h : f.Shows l)
    (position : UInt64) :
    Shows { f with position } { l with position } :=
  ⟨h.locals, h.within, h.values, rfl⟩

end Shows

/-- An action that is permitted answers alike on a frame and on its layers, and leaves a frame that
holds the layers which it leaves. -/
theorem Outcome.shows
    {a : Action} {answer : Except Misuse (Option Constant)}
    (h : f.Outcome a answer f')
    (shows_l : f.Shows l)
    (permits : l.Permits a) :
    answer = (l.perform f.capacity a).1 ∧ f'.Shows (l.perform f.capacity a).2 := by
  cases h with
  | push value room =>
      rw [Layers.perform, if_neg (shows_l.size_ne room)]
      exact ⟨rfl, shows_l.pushed room⟩
  | push_full value full =>
      rw [Layers.perform, if_pos (shows_l.size_eq full)]
      exact ⟨rfl, shows_l⟩
  | tryPush value room =>
      rw [Layers.perform, if_neg (shows_l.size_ne room)]
      exact ⟨rfl, shows_l.pushed room⟩
  | tryPush_full value full =>
      rw [Layers.perform, if_pos (shows_l.size_eq full)]
      exact ⟨rfl, shows_l⟩
  | pop found | tryPop found =>
      rw [shows_l.top?_eq permits] at found
      exact ⟨congrArg _ found.symm, shows_l.popped permits⟩
  | top found =>
      rw [shows_l.top?_eq permits] at found
      exact ⟨congrArg _ found.symm, shows_l⟩
  | pop_bottom bottom | tryPop_bottom bottom | top_bottom bottom =>
      exact absurd bottom (shows_l.depth_ne_zero permits)
  | store inside found =>
      obtain ⟨some, is_local⟩ := permits
      rw [shows_l.top?_eq some] at found
      rw [Layers.perform, found]
      exact ⟨rfl, (shows_l.popped some).stored is_local⟩
  | store_bottom inside bottom =>
      exact absurd bottom (shows_l.depth_ne_zero permits.1)
  | store_outside outside =>
      have within := shows_l.within
      have is_local := permits.2
      rw [shows_l.depth_eq, Layers.size] at within
      omega
  | load found room =>
      rw [shows_l.slot?_local permits] at found
      rw [Layers.perform, if_neg (shows_l.size_ne room), found]
      exact ⟨rfl, shows_l.pushed room⟩
  | load_full found full =>
      rw [Layers.perform, if_pos (shows_l.size_eq full)]
      exact ⟨rfl, shows_l⟩
  | load_outside none =>
      rw [shows_l.slot?_local permits, List.getElem?_eq_none_iff] at none
      exact absurd permits (Nat.not_lt.2 none)
  | moveTo position =>
      exact ⟨rfl, shows_l.moved position⟩
  | advance goes_on =>
      rw [Layers.perform, if_neg (shows_l.position ▸ goes_on), ← shows_l.position]
      exact ⟨rfl, shows_l.moved _⟩
  | advance_last last =>
      rw [Layers.perform, if_pos (shows_l.position ▸ last)]
      exact ⟨rfl, shows_l⟩
  | pop_hollow hollow | tryPop_hollow hollow | top_hollow hollow | store_hollow _ hollow =>
      exact absurd hollow (not_hollow shows_l.within)

theorem shows_start
    (d : Descriptor Constant) (capacity : Nat) :
    (withCapacity d capacity).Shows (Layers.start d) := by
  refine ⟨List.length_replicate, ?_, ?_, rfl⟩
  · rw [capacity_withCapacity]
    exact Nat.le_max_right _ _
  · rw [values, withCapacity, Layers.start, Array.toList_replicate, List.take_replicate,
      Nat.min_eq_left (Nat.le_max_right _ _), List.append_nil]

/-- What actions do to a frame, they do to its layers, if they are permitted. -/
theorem Shows.run
    {slots : Nat} {actions : List Action}
    (h : f.Shows l)
    (capacity : f.capacity = slots)
    (permitted : l.Permitted slots actions) :
    (f.run actions).Shows (l.run slots actions) := by
  induction actions generalizing f l with
  | nil =>
      exact h
  | cons a rest ih =>
      subst capacity
      obtain ⟨permits, permitted_rest⟩ := permitted
      exact ih ((f.outcome a).shows h permits).2 (change_after f a).capacity_eq permitted_rest

/-- After any run that is permitted, a frame holds the locals of its layers below and the stack
above them, stands at their position, and the next action answers as on the layers. -/
theorem layered_run
    (d : Descriptor Constant) (capacity : Nat) {actions : List Action}
    (permitted : (Layers.start d).Permitted (max capacity d.localCount.toNat) actions) :
    let slots := max capacity d.localCount.toNat
    let f := (withCapacity d capacity).run actions
    let l := (Layers.start d).run slots actions
    f.capacity = slots ∧
      l.locals.length = d.localCount.toNat ∧
      f.depth = d.localCount.toNat + l.stack.length ∧
      f.depth ≤ slots ∧
      (∀ j, j < d.localCount.toNat → f.slot? j = l.locals[j]?) ∧
      (∀ k, k < l.stack.length → f.slot? (d.localCount.toNat + k) = l.stack[k]?) ∧
      f.position = l.position ∧
      ∀ a, l.Permits a → f.answer a = (l.perform slots a).1 := by
  intro slots f l
  have made : (withCapacity d capacity).capacity = slots := capacity_withCapacity d capacity
  have shows_l : f.Shows l := (shows_start d capacity).run made permitted
  have slots_eq : f.capacity = slots := (capacity_run _ actions).trans made
  have locals : l.locals.length = d.localCount.toNat := by
    rw [shows_l.locals, descriptor_run]
    rfl
  refine ⟨slots_eq, locals, ?_, slots_eq ▸ shows_l.within, ?_, ?_, shows_l.position, ?_⟩
  · rw [shows_l.depth_eq, Layers.size, locals]
  · intro j inside
    exact shows_l.slot?_local (locals ▸ inside)
  · intro k inside
    exact locals ▸ shows_l.slot?_stack inside
  · intro a permits
    rw [← slots_eq]
    exact ((f.outcome a).shows shows_l permits).1

/-- A function with two locals. -/
def pairing : Descriptor Constant :=
  { (.named "pairing" : Descriptor Constant) with localCount := 2 }

/-- Fills a frame with room for one value beside two locals, moves the value into a local, and loads
the local again, leaving values in slots that are no longer in use. -/
def shuffle : List Action :=
  [.push (.boolean true), .tryPush (.boolean false), .store 1, .load 0, .pop, .load 1, .top]

theorem layered_run_shuffle :
    (Layers.start pairing).Permitted 3 shuffle ∧
      ((withCapacity pairing 3).run shuffle).slot? 1 = some (.boolean true) ∧
      ((withCapacity pairing 3).run shuffle).answer .pop = .ok (some (.boolean true)) := by
  have permitted : (Layers.start pairing).Permitted 3 shuffle := by decide
  obtain ⟨_, _, _, _, locals, _, _, answers⟩ := layered_run pairing 3 permitted
  exact ⟨permitted, locals 1 (by decide), answers .pop (by decide)⟩

end Frame
end StackCode
