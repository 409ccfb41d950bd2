import StackCode.Proofs.Closure
import StackCode.Proofs.Program.Run

/-!
# Programs as arenas

A program hands out positions of descriptors and functions, and never takes one back but by starting
over. Its four parts depend on each other: functions run descriptors that are there, the root is one
of the functions, and the index leads from a name to the first descriptor that has it. Each
operation changes several parts at once; that they still fit together is an invariant of single
operations, and from there of runs.

**Results.**
* `Program.Step.consistent`, `Program.Reachable.consistent`: the parts of a program fit together.
* `Program.Runs.keeps`: what a run without starting over keeps.
* `Program.coherent_of_runs`: both, in terms of what can be looked up.
-/

namespace StackCode
namespace Program

/-- An operation on a program with its arguments. -/
inductive Operation where
  | register (d : Descriptor Constant)
  | addFunction (f : Function)
  | setBindings (id : FunctionId) (bindings : NameMap Constant)
  | setRoot (id : FunctionId)
  | clear

/-- Functions are added as copies and closures of those that the program holds. -/
def Operation.Admissible (p : Program) : Operation → Prop
  | addFunction f => p.Derived f
  | _ => True

/-- The bindings of a function after an operation, given those before. -/
def Operation.edit (id : FunctionId) (old : NameMap Constant) : Operation → NameMap Constant
  | setBindings edited bindings => if edited = id then bindings else old
  | _ => old

/-- The program that an operation leaves behind, also when it was refused. -/
def after (p : Program) : Operation → Program
  | .register d => (p.register d).2
  | .addFunction f => (p.addFunction f).2
  | .setBindings id bindings => p.setBindings id bindings
  | .setRoot id =>
    match chooseRoot id p with
    | .ok _ next => next
    | .error _ left => left
  | .clear => empty

/-- Operations that are performed one after the other. -/
inductive Runs : Program → List Operation → Program → Prop
  | nil (p : Program) :
      Runs p [] p
  | cons {p p' : Program} {operation : Operation} {operations : List Operation} :
      operation.Admissible p → Runs (p.after operation) operations p' →
        Runs p (operation :: operations) p'

variable {p p' p'' : Program}

/-- The parts of a program fit together. -/
structure Consistent (p : Program) : Prop where
  runs : ∀ f ∈ p.functions, f.descriptor.index < p.descriptors.size
  rooted : ∀ id, p.root = some id → id.index < p.functions.size
  indexed : ∀ name, p.index.find? name =
    (p.descriptors.findIdx? fun d => d.name = name).map DescriptorId.mk

theorem consistent_empty : empty.Consistent := by
  constructor
  · intro f member
    simp [empty] at member
  · intro id rooted
    cases rooted
  · intro name
    simp [empty, NameMap.find?, NameMap.empty, NameMap.lookUp]

theorem index_register
    (d : Descriptor Constant) (name : String)
    (indexed : ∀ name, p.index.find? name =
      (p.descriptors.findIdx? fun d => d.name = name).map DescriptorId.mk) :
    (p.register d).2.index.find? name =
      ((p.descriptors.push d).findIdx? fun d => d.name = name).map DescriptorId.mk := by
  rw [Array.findIdx?_push]
  change (if p.index.contains d.name then p.index
    else p.index.bind d.name ⟨p.descriptorCount⟩).find? name = _
  by_cases known : p.index.contains d.name
  · rw [if_pos known, indexed]
    by_cases same : d.name = name
    · -- The name is in the index, so it is found before the new descriptor.
      rw [NameMap.contains, same, indexed, Option.isSome_map, Option.isSome_iff_exists] at known
      obtain ⟨i, found⟩ := known
      rw [found]
      rfl
    · simp [same]
  · rw [if_neg known, NameMap.find?_bind]
    by_cases same : d.name = name
    · rw [NameMap.contains, same, indexed, Option.isSome_map] at known
      rw [if_pos same.symm, Option.not_isSome_iff_eq_none.1 known]
      simp [same, descriptorCount]
    · rw [if_neg (Ne.symm same), indexed]
      simp [same]

theorem Consistent.register
    (h : p.Consistent)
    (d : Descriptor Constant) :
    (p.register d).2.Consistent := by
  constructor
  · intro f member
    change f.descriptor.index < (p.descriptors.push d).size
    rw [Array.size_push]
    rcases Array.mem_push.1 member with old | rfl
    · exact Nat.lt_succ_of_lt (h.runs f old)
    · exact Nat.lt_succ_self _
  · intro id rooted
    change id.index < (p.functions.push _).size
    rw [Array.size_push]
    exact Nat.lt_succ_of_lt (h.rooted id rooted)
  · intro name
    exact index_register d name h.indexed

theorem Derived.descriptor_lt
    {f : Function}
    (h : p.Derived f)
    (consistent : p.Consistent) :
    f.descriptor.index < p.descriptors.size := by
  induction h with
  | own id found =>
      exact consistent.runs _ (Array.mem_of_getElem? found)
  | withBindings bindings _ ih =>
      exact ih
  | withCaptures captures _ ih =>
      exact ih
  | capture _ made ih =>
      obtain ⟨captures, rfl⟩ := Function.exists_eq_withCaptures made
      exact ih

theorem Consistent.addFunction
    {f : Function}
    (h : p.Consistent)
    (derived : p.Derived f) :
    (p.addFunction f).2.Consistent := by
  refine ⟨?_, ?_, h.indexed⟩
  · intro g member
    rcases Array.mem_push.1 member with old | rfl
    · exact h.runs g old
    · exact derived.descriptor_lt h
  · intro id rooted
    change id.index < (p.functions.push _).size
    rw [Array.size_push]
    exact Nat.lt_succ_of_lt (h.rooted id rooted)

theorem function?_setBindings
    (p : Program) (edited id : FunctionId) (bindings : NameMap Constant) :
    (p.setBindings edited bindings).function? id =
      if edited = id then (p.function? id).map fun f => { f with bindings }
      else p.function? id := by
  obtain ⟨i⟩ := edited
  obtain ⟨j⟩ := id
  change (p.functions.modify i _)[j]? = _
  rw [Array.getElem?_modify]
  simp only [FunctionId.mk.injEq, function?]

theorem Consistent.setBindings
    (h : p.Consistent)
    (id : FunctionId) (bindings : NameMap Constant) :
    (p.setBindings id bindings).Consistent := by
  refine ⟨?_, ?_, h.indexed⟩
  · intro f member
    obtain ⟨i, found⟩ := Array.mem_iff_getElem?.1 member
    have edited := function?_setBindings p id ⟨i⟩ bindings
    rw [show (p.setBindings id bindings).function? ⟨i⟩ = some f from found] at edited
    split at edited
    · obtain ⟨g, found', rfl⟩ := Option.map_eq_some_iff.1 edited.symm
      exact h.runs g (Array.mem_of_getElem? found')
    · exact h.runs f (Array.mem_of_getElem? edited.symm)
  · intro root rooted
    change root.index < (p.functions.modify _ _).size
    rw [Array.size_modify]
    exact h.rooted root rooted

theorem Consistent.setRoot
    {id : FunctionId}
    (h : p.Consistent)
    (done : p.setRoot id = .ok p') :
    p'.Consistent := by
  obtain ⟨_, inside, rfl⟩ := setRoot_eq_ok_iff.1 done
  refine ⟨h.runs, ?_, h.indexed⟩
  intro root rooted
  cases rooted
  exact inside

/-- One operation keeps the parts of a program consistent. -/
theorem Step.consistent
    {Admits : Descriptor Constant → Prop}
    (step : p.Step Admits p')
    (h : p.Consistent) :
    p'.Consistent := by
  cases step with
  | register _ =>
      exact h.register _
  | addFunction derived =>
      exact h.addFunction derived
  | setBindings id bindings =>
      exact h.setBindings id bindings
  | setRoot id done =>
      exact h.setRoot done
  | clear =>
      exact consistent_empty

theorem consistent_of_ofTree
    {tree : CodeTree}
    (made : ofTree tree = .ok p) :
    p.Consistent := by
  have registered : (CodeTree.register tree .empty).2.Consistent :=
    CodeTree.register_invariant (fun _ d h => h.register d) consistent_empty
  exact registered.setRoot made

/-- The parts of every program fit together that operations lead to. -/
theorem Reachable.consistent
    {Admits : Descriptor Constant → Prop}
    (h : p.Reachable Admits) :
    p.Consistent := by
  induction h with
  | empty =>
      exact consistent_empty
  | decoded done =>
      obtain ⟨behind, start, _⟩ := decode_eq_ok_iff.1 done
      obtain ⟨tree, _, _, made⟩ := decodeStart_eq_ok_iff.1 start
      exact consistent_of_ofTree made
  | step _ step ih =>
      exact step.consistent ih

/-- What can be looked up in a program whose parts fit together. -/
structure Coherent (p : Program) : Prop where
  descriptor : ∀ id f, p.function? id = some f → f.descriptor.index < p.descriptorCount
  root : p.root = none ∨ ∃ id, p.root = some id ∧ id.index < p.functionCount
  rootFunction : p.rootFunction?.isSome = p.root.isSome
  rootDescriptor : p.rootDescriptor?.isSome = p.root.isSome
  find : ∀ name id d, p.find? name = some (id, d) ↔
    p.descriptor? id = some d ∧ d.name = name ∧
      ∀ earlier other, earlier.index < id.index → p.descriptor? earlier = some other →
        other.name ≠ name
  find_none : ∀ name, p.find? name = none ↔ ∀ d ∈ p.descriptors, d.name ≠ name

theorem findIdx?_name_eq_some_iff
    {name : String} {i : Nat} :
    (p.descriptors.findIdx? fun d => d.name = name) = some i ↔
      ∃ d, p.descriptor? ⟨i⟩ = some d ∧ d.name = name ∧
        ∀ j other, j < i → p.descriptor? ⟨j⟩ = some other → other.name ≠ name := by
  rw [Array.findIdx?_eq_some_iff_getElem]
  constructor
  · intro ⟨inside, named, first⟩
    refine ⟨_, Array.getElem?_eq_getElem inside, of_decide_eq_true named, ?_⟩
    intro j other before found same
    obtain ⟨_, rfl⟩ := Array.getElem?_eq_some_iff.1 found
    exact first j before (decide_eq_true same)
  · intro ⟨d, found, named, first⟩
    obtain ⟨inside, rfl⟩ := Array.getElem?_eq_some_iff.1 found
    refine ⟨inside, decide_eq_true named, ?_⟩
    intro j before same
    exact first j _ before (Array.getElem?_eq_getElem (Nat.lt_trans before inside))
      (of_decide_eq_true same)

theorem Consistent.find?_eq_some_iff
    {name : String} {id : DescriptorId} {d : Descriptor Constant}
    (h : p.Consistent) :
    p.find? name = some (id, d) ↔
      p.descriptor? id = some d ∧ d.name = name ∧
        ∀ earlier other, earlier.index < id.index → p.descriptor? earlier = some other →
          other.name ≠ name := by
  obtain ⟨i⟩ := id
  rw [find?, h.indexed, Option.bind_eq_some_iff]
  simp only [Option.map_eq_some_iff, findIdx?_name_eq_some_iff, Prod.mk.injEq]
  constructor
  · intro ⟨_, ⟨j, ⟨d', found', named, first⟩, rfl⟩, _, found, same, rfl⟩
    cases same
    obtain rfl := Option.some.inj (found.symm.trans found')
    exact ⟨found, named, fun earlier other => first earlier.index other⟩
  · intro ⟨found, named, first⟩
    exact ⟨⟨i⟩, ⟨i, ⟨d, found, named, fun j other => first ⟨j⟩ other⟩, rfl⟩, d, found, rfl, rfl⟩

theorem Consistent.find?_eq_none_iff
    {name : String}
    (h : p.Consistent) :
    p.find? name = none ↔ ∀ d ∈ p.descriptors, d.name ≠ name := by
  rw [find?, h.indexed]
  cases found : p.descriptors.findIdx? fun d => d.name = name with
  | none =>
      rw [Array.findIdx?_eq_none_iff] at found
      simpa using found
  | some i =>
      obtain ⟨d, there, named, _⟩ := findIdx?_name_eq_some_iff.1 found
      refine iff_of_false ?_ fun absent => absent d (Array.mem_of_getElem? there) named
      change ((p.descriptor? ⟨i⟩).map fun d => (DescriptorId.mk i, d)) ≠ none
      simp [there]

theorem Consistent.coherent
    (h : p.Consistent) :
    p.Coherent := by
  have rootFunction (id : FunctionId) (rooted : p.root = some id) :
      ∃ f, p.function? id = some f :=
    ⟨_, Array.getElem?_eq_getElem (h.rooted id rooted)⟩
  have descriptor (id : FunctionId) (f : Function) (found : p.function? id = some f) :
      ∃ d, p.descriptor? f.descriptor = some d :=
    ⟨_, Array.getElem?_eq_getElem (h.runs f (Array.mem_of_getElem? found))⟩
  refine ⟨?_, ?_, ?_, ?_, ?_, ?_⟩
  · intro id f found
    exact h.runs f (Array.mem_of_getElem? found)
  · cases rooted : p.root with
    | none =>
        exact Or.inl rfl
    | some id =>
        exact Or.inr ⟨id, rfl, h.rooted id rooted⟩
  · rw [rootFunction?]
    cases rooted : p.root with
    | none =>
        rfl
    | some id =>
        obtain ⟨f, found⟩ := rootFunction id rooted
        exact congrArg Option.isSome found
  · rw [rootDescriptor?]
    cases rooted : p.root with
    | none =>
        rfl
    | some id =>
        obtain ⟨f, found⟩ := rootFunction id rooted
        obtain ⟨d, found'⟩ := descriptor id f found
        change ((p.function? id).bind fun f => p.descriptor? f.descriptor).isSome = true
        rw [found]
        exact congrArg Option.isSome found'
  · intro name id d
    exact h.find?_eq_some_iff
  · intro name
    exact h.find?_eq_none_iff

theorem after_setRoot_of_ok
    {id : FunctionId}
    (done : p.setRoot id = .ok p') :
    p.after (.setRoot id) = p' := by
  cases chosen : chooseRoot id p with
  | ok _ next =>
      rw [setRoot, chosen] at done
      rw [after, chosen]
      exact Except.ok.inj done
  | error e left =>
      rw [setRoot, chosen] at done
      cases done

theorem after_setRoot_of_error
    {id : FunctionId} {e : Error}
    (refused : p.setRoot id = .error e) :
    p.after (.setRoot id) = p := by
  cases chosen : chooseRoot id p with
  | ok _ next =>
      rw [setRoot, chosen] at refused
      cases refused
  | error e' left =>
      rw [after, chosen]
      exact eq_of_chooseRoot_eq_error chosen

/-- An operation leads to a program that can be reached, as a refused one changes nothing. -/
theorem Reachable.after
    {operation : Operation}
    (h : p.Reachable fun _ => True)
    (admissible : operation.Admissible p) :
    (p.after operation).Reachable fun _ => True := by
  cases operation with
  | register d =>
      exact h.step (.register trivial)
  | addFunction f =>
      exact h.step (.addFunction admissible)
  | setBindings id bindings =>
      exact h.step (.setBindings id bindings)
  | setRoot id =>
      cases done : p.setRoot id with
      | ok p' =>
          rw [after_setRoot_of_ok done]
          exact h.step (.setRoot id done)
      | error e =>
          rw [after_setRoot_of_error done]
          exact h
  | clear =>
      exact h.step .clear

theorem Runs.reachable
    {operations : List Operation}
    (run : p.Runs operations p')
    (h : p.Reachable fun _ => True) :
    p'.Reachable fun _ => True := by
  induction run with
  | nil p =>
      exact h
  | cons admissible _ ih =>
      exact ih (h.after admissible)

/-- What operations leave of a program: its positions lead where they led, up to the bindings that
were replaced, and its root stays. -/
structure Keeps (p : Program) (operations : List Operation) (p' : Program) : Prop where
  descriptor : ∀ id d, p.descriptor? id = some d → p'.descriptor? id = some d
  function : ∀ id f, p.function? id = some f →
    p'.function? id = some { f with bindings := operations.foldl (Operation.edit id) f.bindings }
  root : ∀ id, p.root = some id → p'.root = some id

theorem Keeps.trans
    {operations operations' : List Operation}
    (h : p.Keeps operations p')
    (h' : p'.Keeps operations' p'') :
    p.Keeps (operations ++ operations') p'' := by
  refine ⟨?_, ?_, ?_⟩
  · intro id d found
    exact h'.descriptor id d (h.descriptor id d found)
  · intro id f found
    rw [List.foldl_append]
    exact h'.function id _ (h.function id f found)
  · intro id rooted
    exact h'.root id (h.root id rooted)

theorem getElem?_push_of_eq_some
    {α : Type} {items : Array α} {i : Nat} {a : α}
    (added : α)
    (found : items[i]? = some a) :
    (items.push added)[i]? = some a := by
  obtain ⟨inside, _⟩ := Array.getElem?_eq_some_iff.1 found
  rw [Array.getElem?_push_lt inside, ← found, Array.getElem?_eq_getElem inside]

/-- One operation other than starting over keeps what there is. -/
theorem keeps_after
    {operation : Operation}
    (goes_on : operation ≠ .clear) :
    p.Keeps [operation] (p.after operation) := by
  cases operation with
  | register d =>
      exact ⟨fun _ _ => getElem?_push_of_eq_some _, fun _ _ => getElem?_push_of_eq_some _,
        fun _ rooted => rooted⟩
  | addFunction f =>
      exact ⟨fun _ _ found => found, fun _ _ => getElem?_push_of_eq_some _,
        fun _ rooted => rooted⟩
  | setBindings edited bindings =>
      refine ⟨fun _ _ found => found, ?_, fun _ rooted => rooted⟩
      intro id f found
      change (p.setBindings edited bindings).function? id =
        some { f with bindings := if edited = id then bindings else f.bindings }
      rw [function?_setBindings, found]
      split <;> rfl
  | setRoot id =>
      cases done : p.setRoot id with
      | ok p' =>
          rw [after_setRoot_of_ok done]
          obtain ⟨unset, _, rfl⟩ := setRoot_eq_ok_iff.1 done
          refine ⟨fun _ _ found => found, fun _ _ found => found, ?_⟩
          intro root rooted
          cases unset.symm.trans rooted
      | error e =>
          rw [after_setRoot_of_error done]
          exact ⟨fun _ _ found => found, fun _ _ found => found, fun _ rooted => rooted⟩
  | clear =>
      exact absurd rfl goes_on

theorem Runs.keeps
    {operations : List Operation}
    (run : p.Runs operations p')
    (goes_on : .clear ∉ operations) :
    p.Keeps operations p' := by
  induction run with
  | nil p =>
      exact ⟨fun _ _ found => found, fun _ _ found => found, fun _ rooted => rooted⟩
  | cons _ _ ih =>
      rw [List.mem_cons, not_or] at goes_on
      obtain ⟨first, others⟩ := goes_on
      exact (keeps_after (Ne.symm first)).trans (ih others)

/-- What registering a descriptor and adding a function hand out: positions that led nowhere, and
now lead to what was added. -/
structure Issues (p : Program) : Prop where
  register : ∀ d, p.descriptor? ⟨p.descriptorCount⟩ = none ∧ p.function? (p.register d).1 = none ∧
    (p.after (.register d)).descriptor? ⟨p.descriptorCount⟩ = some d ∧
    (p.after (.register d)).function? (p.register d).1 =
      some (.ofDescriptor ⟨p.descriptorCount⟩ d)
  addFunction : ∀ f, p.function? (p.addFunction f).1 = none ∧
    (p.after (.addFunction f)).function? (p.addFunction f).1 = some f

theorem issues
    (p : Program) :
    p.Issues := by
  have free : p.functions[p.functions.size]? = none :=
    Array.getElem?_eq_none_iff.2 (Nat.le_refl _)
  constructor
  · intro d
    exact ⟨Array.getElem?_eq_none_iff.2 (Nat.le_refl _), free, Array.getElem?_push_size,
      Array.getElem?_push_size⟩
  · intro f
    exact ⟨free, Array.getElem?_push_size⟩

/-- After any run from the empty program or from a decoded one, look-ups in the program are
coherent, and positions that are handed out are new. A root that is refused changes nothing. Until
the program starts over, every position leads where it led, with the bindings that were set last,
and the root stays. -/
theorem coherent_of_runs
    {start p : Program} {operations : List Operation}
    (initial : start = .empty ∨ ∃ settings bytes, decode settings bytes = .ok start)
    (run : start.Runs operations p) :
    p.Coherent ∧ p.Issues ∧
    (∀ id e, p.setRoot id = .error e → p.after (.setRoot id) = p) ∧
    (∀ id, p.root = some id → ∀ other, p.setRoot other = .error .rootAlreadySet) ∧
    ∀ later p', p.Runs later p' → .clear ∉ later → p.Keeps later p' := by
  have reachable : p.Reachable fun _ => True := by
    refine run.reachable ?_
    rcases initial with rfl | ⟨settings, bytes, decoded⟩
    · exact .empty
    · exact .decoded decoded
  refine ⟨reachable.consistent.coherent, p.issues, ?_, ?_, ?_⟩
  · intro id e refused
    exact after_setRoot_of_error refused
  · intro id rooted other
    exact setRoot_of_rooted rooted
  · intro later p' further goes_on
    exact further.keeps goes_on

/-- Two descriptors of one name, a closure over the first, and a root that is chosen twice. -/
def twins : List Operation :=
  [.register (.named "twin"), .register (.named "twin"), .setRoot ⟨1⟩,
    .addFunction ((Function.ofDescriptor ⟨0⟩ (.named "twin" : Descriptor Constant)).withCaptures
      [.boolean true]),
    .setRoot ⟨2⟩, .setBindings ⟨2⟩ (NameMap.empty.bind "a" .nothing)]

theorem coherent_of_runs_twins :
    ∃ p, empty.Runs twins p ∧ p.root = some ⟨1⟩ ∧ p.functionCount = 3 ∧
      p.find? "twin" = some (⟨0⟩, .named "twin") ∧ p.find? "twins" = none ∧
      ∀ p', p.Runs [.setRoot ⟨0⟩, .register (.named "twins")] p' → p'.root = some ⟨1⟩ := by
  have run : ∃ p, empty.Runs twins p ∧ p.root = some ⟨1⟩ ∧ p.functionCount = 3 ∧
      p.descriptors = #[.named "twin", .named "twin"] :=
    ⟨_, .cons trivial (.cons trivial (.cons trivial (.cons (.withCaptures _ (.own ⟨0⟩ rfl))
      (.cons trivial (.cons trivial (.nil _)))))), rfl, rfl, rfl⟩
  obtain ⟨p, run, root, count, descriptors⟩ := run
  obtain ⟨coherent, _, _, _, keeps⟩ := coherent_of_runs (Or.inl rfl) run
  refine ⟨p, run, root, count, ?_, ?_, ?_⟩
  · refine (coherent.find _ _ _).2 ⟨?_, rfl, fun earlier _ before => by cases before⟩
    rw [descriptor?, descriptors]
    rfl
  · refine (coherent.find_none _).2 fun d member => ?_
    rw [descriptors] at member
    simp only [Array.mem_def, List.mem_cons, List.not_mem_nil, or_false, or_self] at member
    rw [member]
    decide
  · intro p' later
    exact (keeps _ p' later (by simp)).root ⟨1⟩ root

end Program
end StackCode
