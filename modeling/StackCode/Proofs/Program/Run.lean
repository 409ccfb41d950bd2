import StackCode.Closure
import StackCode.Proofs.Image.Decoding

/-!
# Runs over programs

A program is built from the empty one, or from one that was decoded, by registering descriptors,
adding functions, binding particles, choosing a root and starting over. Functions are added as
copies and closures of those that the program holds already.

**Results.**
* `Program.Reachable.forall_descriptors`: what every descriptor of such a program satisfies.
-/

namespace StackCode
namespace Program

/-- The functions that can be made from those of a program: copies, the same with other bindings or
captures, and closures. -/
inductive Derived (p : Program) : Function → Prop
  | own (id : FunctionId) {f : Function} :
      p.function? id = some f → Derived p f
  | withBindings {f : Function} (bindings : NameMap Constant) :
      Derived p f → Derived p { f with bindings }
  | withCaptures {f : Function} (captures : List Constant) :
      Derived p f → Derived p (f.withCaptures captures)
  | capture {f g enclosing : Function} {wanted : List Variable} {frame : Frame} :
      Derived p f → f.capture wanted frame enclosing = .ok g → Derived p g

/-- One operation on a program, if the descriptors that it registers are admitted. -/
inductive Step (Admits : Descriptor Constant → Prop) (p : Program) : Program → Prop
  | register {d : Descriptor Constant} :
      Admits d → Step Admits p (p.register d).2
  | addFunction {f : Function} :
      p.Derived f → Step Admits p (p.addFunction f).2
  | setBindings (id : FunctionId) (bindings : NameMap Constant) :
      Step Admits p (p.setBindings id bindings)
  | setRoot (id : FunctionId) {p' : Program} :
      p.setRoot id = .ok p' → Step Admits p p'
  | clear :
      Step Admits p empty

/-- The programs that operations lead to from the empty program and from decoded ones. -/
inductive Reachable (Admits : Descriptor Constant → Prop) : Program → Prop
  | empty : Reachable Admits empty
  | decoded {settings : Settings} {bytes : List UInt8} {p : Program} :
      decode settings bytes = .ok p → Reachable Admits p
  | step {p p' : Program} :
      Reachable Admits p → p.Step Admits p' → Reachable Admits p'

variable {Admits P : Descriptor Constant → Prop} {p p' : Program}

/-- The descriptors after an operation are admitted, or were there before. -/
theorem Step.forall_descriptors
    (h : p.Step Admits p')
    (admits : ∀ d, Admits d → P d)
    (before : ∀ d ∈ p.descriptors, P d) :
    ∀ d ∈ p'.descriptors, P d := by
  cases h with
  | register admitted =>
      intro d member
      rcases Array.mem_push.1 member with old | rfl
      · exact before d old
      · exact admits d admitted
  | addFunction _ =>
      exact before
  | setBindings id bindings =>
      exact before
  | setRoot id done =>
      obtain ⟨_, _, rfl⟩ := setRoot_eq_ok_iff.1 done
      exact before
  | clear =>
      intro d member
      simp [Program.empty] at member

/-- The descriptors of a decoded program are those of a tree that could be read. -/
theorem storable_of_decode_eq_ok
    {settings : Settings} {bytes : List UInt8}
    (h : decode settings bytes = .ok p) :
    ∀ d ∈ p.descriptors, d.IsMade ∧ d.Addressable := by
  intro d member
  obtain ⟨root, tree, readable, flattens⟩ := exists_flattens_of_decode h
  obtain ⟨i, found⟩ := Array.mem_iff_getElem?.1 member
  obtain ⟨pool, node, entries⟩ := flattens.getElem?_nodes found
  have storable := (readable.admitted _ (List.mem_of_getElem? node)).1
  have again : d = (d.withPool pool).withPool d.pool := rfl
  constructor
  · rw [again]
    exact storable.made.withPool d.pool
  · rw [again]
    exact storable.addressable.withPool entries.length_eq

/-- What every admitted descriptor and every descriptor of a decoded program satisfies, every
descriptor of a program satisfies that operations lead to. -/
theorem Reachable.forall_descriptors
    (h : p.Reachable Admits)
    (admits : ∀ d, Admits d → P d)
    (decoded : ∀ d : Descriptor Constant, d.IsMade → d.Addressable → P d) :
    ∀ d ∈ p.descriptors, P d := by
  induction h with
  | empty =>
      intro d member
      simp [Program.empty] at member
  | decoded done =>
      intro d member
      obtain ⟨made, addressable⟩ := storable_of_decode_eq_ok done d member
      exact decoded d made addressable
  | step _ step ih =>
      exact step.forall_descriptors admits ih

end Program
end StackCode
