import StackCode.Proofs.Closure
import StackCode.Proofs.Frame.Run
import StackCode.Proofs.Verification.First

/-!
# Closures made in a running frame

A closure takes its captures from two sources: locals from the frame in which it is made, and
captures from the function that is running there. A frame has more slots than locals, and the slots
above the locals may hold values that were popped long ago; a variable that names one of them is
refused. A real local is never refused, because every frame has a slot for each of its locals,
whatever was done to it.

The variables are looked up in order, and the first one that is refused decides the error.

**Results.**
* `Function.exists_capture_eq_ok_iff`, `Function.named?_of_capture`: when a closure is made, and
  of what.
* `Function.capture_eq_error_iff`: when it is refused, and why.
* `Function.capture_exact`: closures made in a frame after any run.
-/

namespace StackCode
namespace Function

open List (Forall₂)

/-- What a variable names: a slot of the frame, or a capture of the enclosing function. -/
def named? (frame : Frame) (enclosing : Function) (v : Variable) : Option Constant :=
  match v.kind with
  | .slot => frame.slot? v.index.toNat
  | .captured => enclosing.capture? v.index.toNat

section

variable {f g enclosing : Function} {frame : Frame} {v : Variable} {wanted : List Variable}
variable {e : Error}

/-- The value of a variable is what it names. -/
theorem named?_of_resolve
    {value : Constant}
    (done : resolve frame enclosing v = .ok value) :
    named? frame enclosing v = some value := by
  obtain ⟨kind, index⟩ := v
  cases kind with
  | slot =>
      by_cases inside : index.toNat < frame.descriptor.localCount.toNat
      · cases found : frame.slot? index.toNat with
        | none =>
            simp [resolve, inside, found] at done
        | some other =>
            simp only [resolve, if_pos inside, found, Except.ok.injEq] at done
            rw [named?, found, done]
      · simp [resolve, inside] at done
  | captured =>
      cases found : enclosing.capture? index.toNat with
      | none =>
          simp [resolve, found] at done
      | some other =>
          simp only [resolve, found, Except.ok.injEq] at done
          rw [named?, found, done]

variable (slots : frame.descriptor.localCount.toNat ≤ frame.capacity)
include slots

/-- The first variable whose position is too high is the error. -/
theorem capture_eq_error_iff :
    f.capture wanted frame enclosing = .error e ↔
      ∃ n v, FirstAt (fun v => v.index.toNat < available frame enclosing v.kind) wanted n v ∧
        available frame enclosing v.kind ≤ v.index.toNat ∧
        e = .captureOutOfRange v.kind v.index (available frame enclosing v.kind) := by
  rcases @capture_outcome enclosing frame slots f wanted with
    ⟨inside, captures, _, done⟩ | ⟨before, v, rest, rfl, passing, outside, refused⟩
  · refine iff_of_false (fun refused => by cases done.symm.trans refused) ?_
    rintro ⟨n, v, first, outside, _⟩
    exact absurd (inside v (List.mem_of_getElem? first.found)) (Nat.not_lt.2 outside)
  · have first : FirstAt (fun v => v.index.toNat < available frame enclosing v.kind)
        (before ++ v :: rest) before.length v :=
      FirstAt.of_append passing
    rw [refused]
    constructor
    · rintro ⟨⟩
      exact ⟨_, v, first, outside, rfl⟩
    · rintro ⟨n, w, first', outside', rfl⟩
      rw [first.unique (Nat.not_lt.2 outside) first' (Nat.not_lt.2 outside')]

/-- A closure is made when every variable is there. -/
theorem exists_capture_eq_ok_iff :
    (∃ g, f.capture wanted frame enclosing = .ok g) ↔
      ∀ v ∈ wanted, v.index.toNat < available frame enclosing v.kind := by
  rcases @capture_outcome enclosing frame slots f wanted with
    ⟨inside, captures, _, done⟩ | ⟨before, v, rest, parts, _, outside, refused⟩
  · exact iff_of_true ⟨_, done⟩ inside
  · refine iff_of_false ?_ fun inside => ?_
    · rintro ⟨g, done⟩
      cases done.symm.trans refused
    · have member : v ∈ wanted := parts ▸ List.mem_append_right _ List.mem_cons_self
      exact absurd (inside v member) (Nat.not_lt.2 outside)

/-- A closure captures what the variables name, in order. -/
theorem named?_of_capture
    (done : f.capture wanted frame enclosing = .ok g) :
    ∃ captures, g = f.withCaptures captures ∧
      Forall₂ (fun v value => named? frame enclosing v = some value) wanted captures := by
  rcases @capture_outcome enclosing frame slots f wanted with
    ⟨_, captures, all, made⟩ | ⟨_, _, _, _, _, _, refused⟩
  · obtain rfl := Except.ok.inj (made.symm.trans done)
    exact ⟨captures, rfl, all.imp fun v value => named?_of_resolve⟩
  · cases done.symm.trans refused

end

/-- How many variables of a kind can be captured in a frame of a descriptor. -/
def limit (d : Descriptor Constant) (enclosing : Function) : VariableKind → Nat
  | .slot => d.localCount.toNat
  | .captured => enclosing.captures.length

theorem available_eq_limit
    (frame : Frame) (enclosing : Function) :
    available frame enclosing = limit frame.descriptor enclosing := by
  funext kind
  cases kind <;> rfl

/-- A closure is made in a frame, after any run, exactly when every local among the variables is one
of the descriptor's and every captured variable one of the enclosing function's. It is the same
function with what the variables name for its captures. Otherwise the first variable that is not
there is reported. -/
theorem capture_exact
    {d : Descriptor Constant} {start : Frame}
    (made : start = .ofDescriptor d ∨ ∃ capacity, start = .withCapacity d capacity)
    (actions : List Frame.Action) (f enclosing : Function) (wanted : List Variable) :
    ((∃ g, f.capture wanted (start.run actions) enclosing = .ok g) ↔
      ∀ v ∈ wanted, v.index.toNat < limit d enclosing v.kind) ∧
    (∀ g, f.capture wanted (start.run actions) enclosing = .ok g →
      g.descriptor = f.descriptor ∧ g.bindings = f.bindings ∧
        g.captures.length = wanted.length ∧
        ∀ (i : Nat) (v : Variable), wanted[i]? = some v →
          g.captures[i]? = named? (start.run actions) enclosing v) ∧
    ∀ e, f.capture wanted (start.run actions) enclosing = .error e ↔
      ∃ n v, FirstAt (fun v => v.index.toNat < limit d enclosing v.kind) wanted n v ∧
        limit d enclosing v.kind ≤ v.index.toNat ∧
        e = .captureOutOfRange v.kind v.index (limit d enclosing v.kind) := by
  obtain ⟨capacity, rfl⟩ : ∃ capacity, start = .withCapacity d capacity := by
    rcases made with rfl | made
    · exact ⟨d.frameCapacity, rfl⟩
    · exact made
  have slots := Frame.localCount_le_capacity_run d capacity actions
  have descriptor := Frame.descriptor_run (.withCapacity d capacity) actions
  generalize (Frame.withCapacity d capacity).run actions = frame at slots descriptor ⊢
  obtain rfl : frame.descriptor = d := descriptor
  rw [← available_eq_limit]
  refine ⟨exists_capture_eq_ok_iff slots, fun g done => ?_, fun e => capture_eq_error_iff slots⟩
  obtain ⟨captures, rfl, named⟩ := named?_of_capture slots done
  obtain ⟨length, each⟩ := List.forall₂_iff_get.1 named
  refine ⟨rfl, rfl, length.symm, fun i v found => ?_⟩
  obtain ⟨inside, rfl⟩ := List.getElem?_eq_some_iff.1 found
  have inside' : i < captures.length := length ▸ inside
  exact (List.getElem?_eq_getElem inside').trans (each i inside inside').symm

/-- A function with two locals. -/
def twoLocals : Descriptor Constant :=
  { (.named "outer" : Descriptor Constant) with localCount := 2 }

/-- A function with one capture. -/
def oneCapture : Function := ⟨⟨0⟩, .empty, [.boolean true]⟩

/-- A run that leaves a value behind in the slot above the locals. -/
def leftover : List Frame.Action := [.push (.integer 7), .store 1, .push (.integer 9), .pop]

theorem capture_exact_leftover :
    let frame := (Frame.withCapacity twoLocals 4).run leftover
    (∃ g, oneCapture.capture [⟨.slot, 1⟩, ⟨.captured, 0⟩] frame oneCapture = .ok g ∧
      g.captures[0]? = some (.integer 7) ∧ g.captures[1]? = some (.boolean true)) ∧
    frame.slot? 2 = some (.integer 9) ∧
    oneCapture.capture [⟨.captured, 0⟩, ⟨.slot, 2⟩, ⟨.captured, 1⟩] frame oneCapture =
      .error (.captureOutOfRange .slot 2 2) := by
  intro frame
  have made : Frame.withCapacity twoLocals 4 = .ofDescriptor twoLocals ∨
      ∃ capacity, Frame.withCapacity twoLocals 4 = .withCapacity twoLocals capacity :=
    Or.inr ⟨4, rfl⟩
  have exact_at (wanted : List Variable) :=
    capture_exact made leftover oneCapture oneCapture wanted
  obtain ⟨g, done⟩ := (exact_at [⟨.slot, 1⟩, ⟨.captured, 0⟩]).1.2 (by decide)
  obtain ⟨_, _, _, captured⟩ := (exact_at _).2.1 g done
  refine ⟨⟨g, done, captured 0 ⟨.slot, 1⟩ rfl, captured 1 ⟨.captured, 0⟩ rfl⟩, rfl, ?_⟩
  refine ((exact_at _).2.2 _).2 ⟨1, ⟨.slot, 2⟩, ⟨rfl, ?_⟩, by decide, rfl⟩
  intro i before other found
  obtain rfl : i = 0 := by omega
  obtain rfl := Option.some.inj found
  decide

end Function
end StackCode
