import Mathlib.Data.List.Forall2
import StackCode.Closure

/-!
# What closures capture

A captured variable has a value when its position is below the number of variables of its kind: the
locals of the frame, or the captures of the enclosing function. This needs a frame that has a slot
for every local, as every frame has that was made for a descriptor.

**Results.**
* `Function.capture_outcome`: a closure is made of the values, or the first variable without a value
  is the error.
* `Function.exists_capture_eq_error_iff`: when there is an error.
-/

namespace StackCode
namespace Function

open List (Forall₂)

/-- A traversal succeeds on every item, or fails on the first item that it fails on. -/
theorem mapM_outcome
    {α β ε : Type} {f : α → Except ε β} (items : List α) :
    (∃ values, Forall₂ (fun a b => f a = .ok b) items values ∧ items.mapM f = .ok values) ∨
      ∃ before a rest e, items = before ++ a :: rest ∧ (∀ b ∈ before, ∃ v, f b = .ok v) ∧
        f a = .error e ∧ items.mapM f = .error e := by
  induction items with
  | nil =>
      exact Or.inl ⟨[], .nil, rfl⟩
  | cons first others ih =>
      rw [List.mapM_cons]
      cases head : f first with
      | error e =>
          exact Or.inr ⟨[], first, others, e, rfl, by simp, head, rfl⟩
      | ok value =>
          rcases ih with ⟨values, all, done⟩ | ⟨before, a, rest, e, rfl, succeed, fails, done⟩
          · rw [done]
            exact Or.inl ⟨value :: values, .cons head all, rfl⟩
          · rw [done]
            refine Or.inr ⟨first :: before, a, rest, e, rfl, ?_, fails, rfl⟩
            exact List.forall_mem_cons.2 ⟨⟨value, head⟩, succeed⟩

/-- A closure differs from the function that it is made of in its captures alone. -/
theorem exists_eq_withCaptures
    {f g enclosing : Function} {wanted : List Variable} {frame : Frame}
    (made : f.capture wanted frame enclosing = .ok g) :
    ∃ captures, g = f.withCaptures captures := by
  rw [capture] at made
  cases found : wanted.mapM (resolve frame enclosing) with
  | error e =>
      rw [found] at made
      cases made
  | ok captures =>
      rw [found] at made
      cases made
      exact ⟨captures, rfl⟩

/-- How many variables of a kind there are to be captured. -/
def available (frame : Frame) (enclosing : Function) : VariableKind → Nat
  | .slot => frame.descriptor.localCount.toNat
  | .captured => enclosing.captures.length

section

variable {enclosing : Function} {frame : Frame} {v : Variable}

/-- A variable whose position is too high has no value. -/
theorem resolve_of_le
    (outside : available frame enclosing v.kind ≤ v.index.toNat) :
    resolve frame enclosing v =
      .error (.captureOutOfRange v.kind v.index (available frame enclosing v.kind)) := by
  obtain ⟨kind, index⟩ := v
  cases kind with
  | slot =>
      simp only [resolve, available] at outside ⊢
      rw [if_neg (Nat.not_lt.2 outside)]
  | captured =>
      have none : enclosing.captures[index.toNat]? = none := List.getElem?_eq_none outside
      simp only [resolve, available, capture?, none]

variable (slots : frame.descriptor.localCount.toNat ≤ frame.capacity)
include slots

/-- A variable whose position is low enough has a value. -/
theorem resolve_of_lt
    (inside : v.index.toNat < available frame enclosing v.kind) :
    ∃ value, resolve frame enclosing v = .ok value := by
  obtain ⟨kind, index⟩ := v
  cases kind with
  | slot =>
      simp only [available] at inside
      have inside_slots : index.toNat < frame.slots.size := Nat.lt_of_lt_of_le inside slots
      refine ⟨frame.slots[index.toNat], ?_⟩
      simp only [resolve, if_pos inside, Frame.slot?, Array.getElem?_eq_getElem inside_slots]
  | captured =>
      simp only [available] at inside
      refine ⟨enclosing.captures[index.toNat], ?_⟩
      simp only [resolve, capture?, List.getElem?_eq_getElem inside]

/-- A closure captures the values of the variables, or is refused at the first variable that has no
value. -/
theorem capture_outcome
    (f : Function) (wanted : List Variable) :
    ((∀ v ∈ wanted, v.index.toNat < available frame enclosing v.kind) ∧
        ∃ captures, Forall₂ (fun v value => resolve frame enclosing v = .ok value) wanted captures ∧
          f.capture wanted frame enclosing = .ok (f.withCaptures captures)) ∨
      ∃ before v rest, wanted = before ++ v :: rest ∧
        (∀ w ∈ before, w.index.toNat < available frame enclosing w.kind) ∧
        available frame enclosing v.kind ≤ v.index.toNat ∧
        f.capture wanted frame enclosing =
          .error (.captureOutOfRange v.kind v.index (available frame enclosing v.kind)) := by
  have lt_of_ok {v : Variable} {value : Constant} (done : resolve frame enclosing v = .ok value) :
      v.index.toNat < available frame enclosing v.kind := by
    by_contra outside
    cases done.symm.trans (resolve_of_le (Nat.le_of_not_lt outside))
  rcases mapM_outcome (f := resolve frame enclosing) wanted with
    ⟨captures, all, done⟩ | ⟨before, v, rest, e, rfl, succeed, fails, done⟩
  · obtain ⟨inside, _⟩ := (List.forall₂_and_left _ _).1
      (all.imp fun v value found => And.intro (lt_of_ok found) found)
    refine Or.inl ⟨inside, captures, all, ?_⟩
    rw [capture, done]
    rfl
  · have outside : available frame enclosing v.kind ≤ v.index.toNat := by
      by_contra inside
      obtain ⟨value, found⟩ := resolve_of_lt slots (Nat.lt_of_not_le inside)
      cases found.symm.trans fails
    refine Or.inr ⟨before, v, rest, rfl, ?_, outside, ?_⟩
    · intro w member
      obtain ⟨value, found⟩ := succeed w member
      exact lt_of_ok found
    · obtain rfl := Except.error.inj (fails.symm.trans (resolve_of_le outside))
      rw [capture, done]
      rfl

/-- A closure is refused exactly when some variable has no value. -/
theorem exists_capture_eq_error_iff
    {f : Function} {wanted : List Variable} :
    (∃ e, f.capture wanted frame enclosing = .error e) ↔
      ∃ v ∈ wanted, available frame enclosing v.kind ≤ v.index.toNat := by
  rcases capture_outcome slots f wanted with
    ⟨inside, captures, _, done⟩ | ⟨before, v, rest, same, _, outside, refused⟩
  · refine iff_of_false ?_ ?_
    · rintro ⟨e, refused⟩
      cases done.symm.trans refused
    · rintro ⟨v, member, outside⟩
      exact absurd (inside v member) (Nat.not_lt.2 outside)
  · refine iff_of_true ⟨_, refused⟩ ⟨v, ?_, outside⟩
    rw [same]
    exact List.mem_append_right _ List.mem_cons_self

end

end Function
end StackCode
